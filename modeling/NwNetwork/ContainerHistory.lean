import NwNetwork.ContainerWire
import NwNetwork.StateRuns
import Mathlib.Data.List.Induction

namespace NwNetwork.Serialize
open WireReader Hub StateRuns

inductive SenderAction (K V : Type) where
  | edit (edit : Edit K V)
  | merge (seq : SequenceNumber)

-- The container that is edited, and the one it was last merged into: a merge
-- starts from a default container and the sender goes on with what it gives. No
-- modelled function reads `pending`, the edits since the last merge.
structure Sender (storage : ContainerStorage K V) where
  merged : ReplicatedContainer storage
  working : ReplicatedContainer storage
  pending : List (Edit K V)

namespace Sender
variable {K V : Type} {storage : ContainerStorage K V}

def start (last_modified : SequenceNumber) (values : storage.Values) : Sender storage :=
  ⟨.default,.new last_modified values,[]⟩

def mergedAt (sender : Sender storage) (seq : SequenceNumber) : ReplicatedContainer storage :=
  (ReplicatedContainer.default.mergeAndUpdateSequence sender.merged sender.working false seq false).1

def step (sender : Sender storage) : SenderAction K V → Sender storage
  | .edit edit => {sender with working := sender.working.pushEdit edit,pending := sender.pending ++ [edit]}
  | .merge seq => ⟨sender.mergedAt seq,sender.mergedAt seq,[]⟩

def run (sender : Sender storage) (actions : List (SenderAction K V)) : Sender storage := actions.foldl step sender

end Sender

def mergeSequences (actions : List (SenderAction K V)) : List SequenceNumber :=
  actions.filterMap fun
    | .edit _ => none
    | .merge seq => some seq

structure Increasing (actions : List (SenderAction K V)) : Prop where
  real : ∀ seq ∈ mergeSequences actions, seq.IsReal
  rising : (mergeSequences actions).Pairwise fun earlier later => earlier.less later = true

-- A container edited here only: nothing received, every recorded change without a
-- sequence, and the merged values are the ones that the pending edits started from.
structure Local {storage : ContainerStorage K V} (sender : Sender storage) : Prop where
  mergedOwn : sender.merged.seqOfLastProcessedChange = .invalid
  workingOwn : sender.working.seqOfLastProcessedChange = .invalid
  noDelta : sender.working.flags.pendingDeltaChanges = false
  sameJournal : sender.working.journal = sender.merged.journal
  unrecorded : sender.working.flags.initializeChange = true → sender.working.currentChanges = []
  recorded : sender.working.flags.initializeChange = false →
    sender.working.currentChanges = sender.pending.map Edit.recorded ∧
      sender.working.values = storage.applyEdits sender.merged.values sender.pending
  touched : sender.pending ≠ [] → sender.working.lastModified = .validNonSequence
  unsequenced : ∀ change_set ∈ sender.merged.journal.sets, ∀ change ∈ change_set.changes, change.sequence = .invalid

section PushedEdits
variable {K V : Type} {storage : ContainerStorage K V} (container : ReplicatedContainer storage) (edit : Edit K V)

theorem pushEdit_values : (container.pushEdit edit).values = storage.applyChange container.values edit.applied := by
  unfold ReplicatedContainer.pushEdit ReplicatedContainer.pushChange
  dsimp only
  split
  · rfl
  · split <;> rfl

theorem pushEdit_keeps : (container.pushEdit edit).journal = container.journal ∧
    (container.pushEdit edit).seqOfLastProcessedChange = container.seqOfLastProcessedChange ∧
    (container.pushEdit edit).flags.pendingDeltaChanges = false ∧
    (container.pushEdit edit).lastModified = .validNonSequence := by
  unfold ReplicatedContainer.pushEdit ReplicatedContainer.pushChange
  dsimp only
  split
  · exact ⟨rfl,rfl,rfl,rfl⟩
  · split <;> exact ⟨rfl,rfl,rfl,rfl⟩

-- An edit is recorded, or everything is to be sent.
theorem pushEdit_changes (unrecorded : container.flags.initializeChange = true → container.currentChanges = []) :
    ((container.pushEdit edit).flags.initializeChange = true ∧ (container.pushEdit edit).currentChanges = []) ∨
    ((container.pushEdit edit).flags.initializeChange = false ∧ container.flags.initializeChange = false ∧
      (container.pushEdit edit).currentChanges = container.currentChanges ++ [edit.recorded]) := by
  unfold ReplicatedContainer.pushEdit ReplicatedContainer.pushChange
  dsimp only
  cases initial : container.flags.initializeChange with
  | true => exact .inl ⟨rfl,unrecorded initial⟩
  | false =>
    rw [if_neg Bool.false_ne_true]
    split
    · exact .inl ⟨rfl,rfl⟩
    · exact .inr ⟨rfl,rfl,rfl⟩

end PushedEdits

section Merges
variable {K V : Type} {storage : ContainerStorage K V} {sender : Sender storage}

theorem pending_changes (own : Local sender) (recording : sender.working.flags.initializeChange = false) :
    sender.working.currentChanges = [] ↔ sender.pending = [] := by
  rw [(own.recorded recording).1]
  exact List.map_eq_nil_iff

theorem hasNewValue_own (own : Local sender) : ReplicatedContainer.hasNewValue sender.merged sender.working =
    (!sender.working.currentChanges.isEmpty || sender.working.flags.initializeChange) := by
  have changes : ReplicatedContainer.hasNewChanges sender.merged sender.working =
      !sender.working.currentChanges.isEmpty := by
    unfold ReplicatedContainer.hasNewChanges
    rw [own.mergedOwn]
    cases sender.working.currentChanges using List.reverseRecOn with
    | nil => rfl
    | append_singleton changes change =>
      rw [List.getLast?_concat]
      cases changes <;> rfl
  have initialization : ReplicatedContainer.hasNewInitialization sender.merged sender.working =
      sender.working.flags.initializeChange := by
    unfold ReplicatedContainer.hasNewInitialization
    rw [own.mergedOwn]
    exact Bool.and_true _
  unfold ReplicatedContainer.hasNewValue
  rw [changes,initialization,own.sameJournal,SequenceNumber.not_less_self,Bool.or_false]

theorem mergedAt_new (own : Local sender) (seq : SequenceNumber) (valid : sender.working.lastModified.isValid = true)
    (news : sender.working.currentChanges ≠ [] ∨ sender.working.flags.initializeChange = true) :
    sender.mergedAt seq = (ReplicatedContainer.default.mergeStart sender.merged).mergeNew sender.merged sender.working seq := by
  have accepted : (sender.working.lastModified.isValid && ReplicatedContainer.hasNewValue sender.merged sender.working) = true := by
    rw [valid,hasNewValue_own own]
    rcases news with changes | initial
    · rw [List.isEmpty_eq_false_iff.mpr changes]
      rfl
    · rw [initial,Bool.or_true]
      rfl
  unfold Sender.mergedAt ReplicatedContainer.mergeAndUpdateSequence
  rw [if_neg Bool.false_ne_true,if_pos accepted]

theorem mergedAt_old (own : Local sender) (seq : SequenceNumber)
    (nothing : sender.working.lastModified.isValid = false ∨
      sender.working.currentChanges = [] ∧ sender.working.flags.initializeChange = false) :
    sender.mergedAt seq = (ReplicatedContainer.default.mergeStart sender.merged).mergeOld sender.merged seq false := by
  have refused : (sender.working.lastModified.isValid && ReplicatedContainer.hasNewValue sender.merged sender.working) = false := by
    rcases nothing with invalid | ⟨unchanged,recording⟩
    · rw [invalid]
      rfl
    · rw [hasNewValue_own own,unchanged,recording]
      exact Bool.and_false _
  unfold Sender.mergedAt ReplicatedContainer.mergeAndUpdateSequence
  rw [if_neg Bool.false_ne_true,refused,if_neg Bool.false_ne_true]

-- What a merge does with a container edited here only: everything is sent anew,
-- the recorded changes get their change set, or nothing is new.
theorem mergedAt_cases (own : Local sender) (seq : SequenceNumber) :
    (sender.working.flags.initializeChange = true ∧ (sender.mergedAt seq).values = sender.working.values ∧
      (sender.mergedAt seq).journal = Journal.empty.push ⟨seq,[]⟩ ∧ (sender.mergedAt seq).lastModified = seq) ∨
    (sender.working.flags.initializeChange = false ∧ sender.pending ≠ [] ∧
      (sender.mergedAt seq).values = sender.working.values ∧
      (sender.mergedAt seq).journal = sender.merged.journal.push ⟨seq,sender.working.currentChanges⟩ ∧
      (sender.mergedAt seq).lastModified = seq) ∨
    ((sender.working.flags.initializeChange = false → sender.pending = []) ∧
      (sender.mergedAt seq).values = sender.merged.values ∧ (sender.mergedAt seq).journal = sender.merged.journal ∧
      (sender.mergedAt seq).lastModified =
        if sender.merged.lastModified.less seq then sender.merged.lastModified else seq) := by
  cases valid : sender.working.lastModified.isValid with
  | false =>
    rw [mergedAt_old own seq (.inl valid)]
    refine .inr (.inr ⟨?_,rfl,rfl,rfl⟩)
    intro recording
    by_contra several
    rw [own.touched several] at valid
    cases valid
  | true =>
    cases initial : sender.working.flags.initializeChange with
    | true =>
      rw [mergedAt_new own seq valid (.inr initial)]
      unfold ReplicatedContainer.mergeNew
      rw [if_pos initial,own.unrecorded initial]
      exact .inl ⟨rfl,rfl,rfl,rfl⟩
    | false =>
      by_cases several : sender.pending = []
      · have unchanged := (pending_changes own initial).mpr several
        rw [mergedAt_old own seq (.inr ⟨unchanged,initial⟩)]
        exact .inr (.inr ⟨fun _ => several,rfl,rfl,rfl⟩)
      · have changed : sender.working.currentChanges ≠ [] := fun empty => several ((pending_changes own initial).mp empty)
        rw [mergedAt_new own seq valid (.inl changed)]
        unfold ReplicatedContainer.mergeNew
        rw [initial,own.noDelta,if_neg Bool.false_ne_true,if_pos Bool.not_false,List.isEmpty_eq_false_iff.mpr changed,
          if_neg Bool.false_ne_true]
        exact .inr (.inl ⟨rfl,several,rfl,rfl,rfl⟩)

theorem mergedAt_keeps (own : Local sender) (seq : SequenceNumber) :
    (sender.mergedAt seq).seqOfLastProcessedChange = .invalid ∧
      (sender.mergedAt seq).flags.initializeChange = false ∧ (sender.mergedAt seq).flags.pendingDeltaChanges = false ∧
      (sender.mergedAt seq).currentChanges = [] := by
  by_cases news : sender.working.lastModified.isValid = true ∧
      (sender.working.currentChanges ≠ [] ∨ sender.working.flags.initializeChange = true)
  · rw [mergedAt_new own seq news.1 news.2]
    unfold ReplicatedContainer.mergeNew
    rw [own.noDelta]
    dsimp only
    split
    · exact ⟨own.workingOwn,rfl,rfl,rfl⟩
    · rw [if_pos Bool.not_false]
      split
      · exact ⟨own.workingOwn,rfl,rfl,rfl⟩
      · exact ⟨own.workingOwn,rfl,rfl,rfl⟩
  · have nothing : sender.working.lastModified.isValid = false ∨
        sender.working.currentChanges = [] ∧ sender.working.flags.initializeChange = false := by
      by_contra neither
      rw [not_or,Bool.not_eq_false,not_and_or,Bool.not_eq_false] at neither
      exact news neither
    rw [mergedAt_old own seq nothing]
    exact ⟨own.mergedOwn,rfl,rfl,rfl⟩

theorem mem_push {journal : Journal K V} {change_set new : ChangeSet K V} (present : change_set ∈ (journal.push new).sets) :
    change_set ∈ journal.sets ∨ change_set = new := by
  unfold Journal.push at present
  split at present
  · exact (List.mem_append.mp present).imp List.mem_of_mem_tail List.mem_singleton.mp
  · exact (List.mem_append.mp present).imp_right List.mem_singleton.mp

theorem local_start (last_modified : SequenceNumber) (values : storage.Values) :
    Local (Sender.start last_modified values : Sender storage) := by
  refine ⟨rfl,rfl,rfl,rfl,fun _ => rfl,nofun,fun absent => absurd rfl absent,?_⟩
  exact fun _ present => nomatch present

theorem local_edit (own : Local sender) (edit : Edit K V) : Local (sender.step (.edit edit)) := by
  obtain ⟨journal,processed,delta,modified⟩ := pushEdit_keeps sender.working edit
  refine ⟨own.mergedOwn,processed.trans own.workingOwn,delta,journal.trans own.sameJournal,?_,?_,fun _ => modified,
    own.unsequenced⟩
  · intro initial
    rcases pushEdit_changes sender.working edit own.unrecorded with ⟨_,nothing⟩ | ⟨recording,_,_⟩
    · exact nothing
    · cases recording.symm.trans initial
  · intro recording
    rcases pushEdit_changes sender.working edit own.unrecorded with ⟨initial,_⟩ | ⟨_,before,changes⟩
    · cases initial.symm.trans recording
    · obtain ⟨recorded,values⟩ := own.recorded before
      constructor
      · change (sender.working.pushEdit edit).currentChanges = _
        change _ = (sender.pending ++ [edit]).map Edit.recorded
        rw [changes,recorded,List.map_append]
        rfl
      · change (sender.working.pushEdit edit).values = storage.applyEdits _ (sender.pending ++ [edit])
        rw [pushEdit_values,values,ContainerStorage.applyEdits_append]
        rfl

theorem local_merge (own : Local sender) (seq : SequenceNumber) : Local (sender.step (.merge seq)) := by
  obtain ⟨processed,recording,delta,nothing⟩ := mergedAt_keeps own seq
  refine ⟨processed,processed,delta,rfl,fun _ => nothing,fun _ => ⟨nothing,rfl⟩,fun absent => absurd rfl absent,?_⟩
  intro change_set present
  change change_set ∈ (sender.mergedAt seq).journal.sets at present
  rcases mergedAt_cases own seq with ⟨_,_,journal,_⟩ | ⟨before,_,_,journal,_⟩ | ⟨_,_,journal,_⟩
  · rw [journal] at present
    rcases mem_push present with old | rfl
    · cases old
    · exact fun _ member => nomatch member
  · rw [journal] at present
    rcases mem_push present with old | rfl
    · exact own.unsequenced change_set old
    · rw [(own.recorded before).1]
      exact Edit.recorded_unsequenced
  · rw [journal] at present
    exact own.unsequenced change_set present

theorem local_step (own : Local sender) (action : SenderAction K V) : Local (sender.step action) := by
  cases action with
  | edit edit => exact local_edit own edit
  | merge seq => exact local_merge own seq

theorem local_run (own : Local sender) (actions : List (SenderAction K V)) : Local (sender.run actions) := by
  induction actions generalizing sender with
  | nil => exact own
  | cons action actions ih => exact ih (local_step own action)

-- Change sets have the sequences of merges.
theorem journal_sequences (own : Local sender) (actions : List (SenderAction K V)) (known : List SequenceNumber)
    (before : ∀ change_set ∈ sender.merged.journal.sets, change_set.sequence ∈ known) :
    ∀ change_set ∈ (sender.run actions).merged.journal.sets, change_set.sequence ∈ known ++ mergeSequences actions := by
  induction actions generalizing sender known with
  | nil =>
    intro change_set present
    exact List.mem_append.mpr (.inl (before change_set present))
  | cons action actions ih =>
    cases action with
    | edit edit => exact ih (local_edit own edit) known before
    | merge seq =>
      have next : ∀ change_set ∈ (sender.mergedAt seq).journal.sets, change_set.sequence ∈ known ++ [seq] := by
        intro change_set present
        have pushed : ∀ {journal : Journal K V} {changes}, (∀ change_set ∈ journal.sets, change_set.sequence ∈ known) →
            change_set ∈ (journal.push ⟨seq,changes⟩).sets → change_set.sequence ∈ known ++ [seq] := by
          intro journal changes old_known member
          rcases mem_push member with old | rfl
          · exact List.mem_append.mpr (.inl (old_known change_set old))
          · exact List.mem_append.mpr (.inr (List.mem_singleton.mpr rfl))
        have nothing : ∀ change_set ∈ (Journal.empty : Journal K V).sets, change_set.sequence ∈ known :=
          fun _ old => nomatch old
        rcases mergedAt_cases own seq with ⟨_,_,journal,_⟩ | ⟨_,_,_,journal,_⟩ | ⟨_,_,journal,_⟩
        · exact pushed nothing (journal ▸ present)
        · exact pushed before (journal ▸ present)
        · exact List.mem_append.mpr (.inl (before change_set (journal ▸ present)))
      have all := ih (local_merge own seq) (known ++ [seq]) next
      rw [List.append_assoc] at all
      exact all

end Merges
end NwNetwork.Serialize
