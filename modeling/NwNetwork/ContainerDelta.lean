import NwNetwork.ContainerHistory
import NwNetwork.SerializeVlq

namespace NwNetwork.Serialize
open WireReader Hub StateRuns

section Since
variable {K V : Type} {storage : ContainerStorage K V}

def Journal.since (journal : Journal K V) (baseline : SequenceNumber) : List (Change K V) :=
  (journal.sets.filter fun change_set => baseline.less change_set.sequence).flatMap ChangeSet.changes

-- Room in the journal, or the oldest change set is one the baseline has.
def Journal.keepsSince (journal : Journal K V) (baseline : SequenceNumber) : Bool :=
  match journal.sets with
  | [] => true
  | oldest :: _ => journal.sets.length < fixedJournalSize || !baseline.less oldest.sequence

theorem push_since {journal : Journal K V} {change_set : ChangeSet K V} (kept : journal.keepsSince baseline = true)
    (later : baseline.less change_set.sequence = true) :
    (journal.push change_set).since baseline = journal.since baseline ++ change_set.changes := by
  have added : ∀ sets : List (ChangeSet K V),
      ((sets ++ [change_set]).filter fun change_set => baseline.less change_set.sequence).flatMap ChangeSet.changes =
        (sets.filter fun change_set => baseline.less change_set.sequence).flatMap ChangeSet.changes ++ change_set.changes := by
    intro sets
    have single : [change_set].filter (fun change_set => baseline.less change_set.sequence) = [change_set] :=
      List.filter_cons_of_pos later
    rw [List.filter_append,List.flatMap_append,single]
    exact congrArg _ (List.append_nil _)
  unfold Journal.push
  split
  · rename_i full
    unfold Journal.since
    rw [added]
    unfold Journal.keepsSince at kept
    cases sets : journal.sets with
    | nil => rfl
    | cons oldest others =>
      rw [sets] at kept full
      have known : ¬baseline.less oldest.sequence = true := by
        rcases Bool.or_eq_true_iff.mp kept with room | old
        · exact absurd full (Nat.ne_of_lt (of_decide_eq_true room))
        · rw [Bool.not_eq_true'] at old
          rw [old]
          exact Bool.false_ne_true
      have dropped : (oldest :: others).filter (fun change_set => baseline.less change_set.sequence) =
          others.filter fun change_set => baseline.less change_set.sequence := List.filter_cons_of_neg known
      rw [dropped]
      rfl
  · exact added journal.sets

-- The journal has the edits from the known values to the merged ones.
def Since (baseline : SequenceNumber) (known : storage.Values) (sender : Sender storage) : Prop :=
  ∃ edits : List (Edit K V), sender.merged.values = storage.applyEdits known edits ∧
    sender.merged.journal.since baseline = edits.map Edit.recorded

-- A merge of recorded changes that drops none the baseline lacks.
def Sender.keepsSince (baseline : SequenceNumber) (sender : Sender storage) : SenderAction K V → Bool
  | .edit _ => true
  | .merge _ => !sender.working.flags.initializeChange &&
      (sender.working.currentChanges.isEmpty || sender.merged.journal.keepsSince baseline)

theorem since_step {sender : Sender storage} {known : storage.Values} (own : Local sender) (since : Since baseline known sender)
    (action : SenderAction K V) (later : ∀ seq ∈ mergeSequences [action], baseline.less seq = true)
    (kept : sender.keepsSince baseline action = true) : Since baseline known (sender.step action) := by
  cases action with
  | edit edit => exact since
  | merge seq =>
    obtain ⟨edits,values,changes⟩ := since
    obtain ⟨recording,room⟩ := Bool.and_eq_true_iff.mp kept
    rw [Bool.not_eq_true'] at recording
    rcases mergedAt_cases own seq with ⟨initial,_⟩ | ⟨_,several,merged,journal,_⟩ | ⟨_,merged,journal,_⟩
    · cases initial.symm.trans recording
    · refine ⟨edits ++ sender.pending,?_,?_⟩
      · change (sender.mergedAt seq).values = _
        rw [merged,(own.recorded recording).2,values,ContainerStorage.applyEdits_append]
      · change (sender.mergedAt seq).journal.since baseline = _
        have unempty : sender.working.currentChanges.isEmpty = false :=
          List.isEmpty_eq_false_iff.mpr fun empty => several ((pending_changes own recording).mp empty)
        rw [unempty,Bool.false_or] at room
        rw [journal,push_since room (later seq (List.mem_singleton.mpr rfl)),changes,(own.recorded recording).1,List.map_append]
    · exact ⟨edits,merged.trans values,(congrArg (Journal.since · baseline) journal).trans changes⟩

theorem since_run {sender : Sender storage} {known : storage.Values} (own : Local sender) (since : Since baseline known sender)
    (actions : List (SenderAction K V)) (later : ∀ seq ∈ mergeSequences actions, baseline.less seq = true)
    (kept : EachAction Sender.step sender actions fun sender action => sender.keepsSince baseline action = true) :
    Since baseline known (sender.run actions) := by
  induction actions generalizing sender with
  | nil => exact since
  | cons action actions ih =>
    obtain ⟨first,rest⟩ := each_cons.mp kept
    have split : mergeSequences (action :: actions) = mergeSequences [action] ++ mergeSequences actions := by
      cases action <;> rfl
    rw [split] at later
    have next := since_step own since action (fun seq present => later seq (List.mem_append.mpr (.inl present))) first
    exact ih (local_step own action) next (fun seq present => later seq (List.mem_append.mpr (.inr present))) rest

-- With the pending edits they lead to the values of the container itself.
theorem since_working {sender : Sender storage} {known : storage.Values} (own : Local sender)
    (since : Since baseline known sender) (recording : sender.working.flags.initializeChange = false) :
    ∃ edits : List (Edit K V), storage.applyEdits known edits = sender.working.values ∧
      sender.working.changesSince baseline = edits.map Edit.recorded := by
  obtain ⟨edits,values,changes⟩ := since
  obtain ⟨recorded,current⟩ := own.recorded recording
  refine ⟨edits ++ sender.pending,?_,?_⟩
  · rw [current,values,ContainerStorage.applyEdits_append]
  · unfold ReplicatedContainer.changesSince
    rw [own.sameJournal,recorded,List.map_append]
    exact congrArg (· ++ _) changes

theorem populate_sequence (storage : ContainerStorage K V) (values : storage.Values) (change : Change K V) :
    (storage.populateChangeValue values change).sequence = change.sequence := by
  unfold ContainerStorage.populateChangeValue
  split
  · rfl
  · split
    · cases change with
      | add key value sequence => cases value <;> rfl
      | update key value sequence => cases value <;> rfl
      | remove key sequence => rfl
    · rfl

theorem changesSince_unsequenced {sender : Sender storage} (own : Local sender)
    (recording : sender.working.flags.initializeChange = false) :
    ∀ change ∈ sender.working.changesSince baseline, change.sequence = .invalid := by
  intro change member
  rcases List.mem_append.mp member with journal | current
  · obtain ⟨change_set,present,inside⟩ := List.mem_flatMap.mp journal
    rw [own.sameJournal] at present
    exact own.unsequenced change_set (List.mem_filter.mp present).1 change inside
  · rw [(own.recorded recording).1] at current
    exact Edit.recorded_unsequenced change current

end Since

section Sent
variable {K V : Type} (kind : StorageKind V K) (key_codec : Codec MarshalerError K)
  (value_codec : Codec MarshalerError V) (cap : Nat)

-- The bytes are read as a snapshot of the values, or as a change list that leads
-- from the known values to them.
def Conveys (bytes : Option Bytes) (known now : kind.storage.Values) : Prop :=
  ∃ written decoded, bytes = some written ∧
    (∀ rest, (ReplicatedContainer.unmarshal key_codec value_codec cap : Read (ReplicatedContainer kind.storage))
      (written ++ rest) = .ok (decoded,rest)) ∧
    ((decoded.isDelta = false ∧ kind.storage.Same decoded.values now) ∨
      (decoded.isDelta = true ∧ ∀ receiver, kind.storage.Same receiver known →
        kind.storage.Same (kind.storage.applyChanges receiver decoded.currentChanges) now))

-- A change list is sent: there are changes since the baseline, and neither too many
-- for the values nor 2^14 of them.
def ReplicatedContainer.listsSince {storage : ContainerStorage K V} (container : ReplicatedContainer storage)
    (baseline : SequenceNumber) : Bool :=
  let count := (container.changesSince baseline).length
  !container.flags.initializeChange && decide (0 < count) && decide (count < vlqTwoByteChangeLimit) &&
    !inefficient count (storage.len container.values)

variable {kind key_codec value_codec cap} {container : ReplicatedContainer kind.storage}

theorem conveys_full (room : kind.storage.len container.values ≤ cap) (small : kind.storage.len container.values < 2^32)
    (known : kind.storage.Values) :
    Conveys kind key_codec value_codec cap (container.marshalFull key_codec value_codec) known container.values := by
  obtain ⟨bytes,values,written,same,read⟩ := container.full_back key_codec value_codec kind room small
  exact ⟨bytes,_,written,read,.inl ⟨rfl,same⟩⟩

theorem listsSince_iff : container.listsSince baseline = true ↔
    container.flags.initializeChange = false ∧ container.changesSince baseline ≠ [] ∧
      (container.changesSince baseline).length < vlqTwoByteChangeLimit ∧
      inefficient (container.changesSince baseline).length (kind.storage.len container.values) = false := by
  unfold ReplicatedContainer.listsSince
  simp only [Bool.and_eq_true,Bool.not_eq_true',decide_eq_true_eq,List.length_pos_iff,and_assoc]

theorem summarize_nonempty (several : container.summarizeChanges baseline ≠ []) :
    container.flags.initializeChange = false ∧ container.changesSince baseline ≠ [] ∧
      inefficient (container.changesSince baseline).length (kind.storage.len container.values) = false ∧
      container.summarizeChanges baseline =
        (container.changesSince baseline).map (kind.storage.populateChangeValue container.values) := by
  unfold ReplicatedContainer.summarizeChanges at several ⊢
  split at several
  · exact absurd rfl several
  · rename_i recording
    dsimp only at several
    split at several
    · exact absurd rfl several
    · rename_i efficient
      have changes : container.changesSince baseline ≠ [] := fun empty => several (List.map_eq_nil_iff.mpr empty)
      rw [List.isEmpty_map,List.isEmpty_eq_false_iff.mpr changes,List.length_map,Bool.not_false,Bool.true_and] at efficient
      rw [if_neg recording]
      dsimp only
      rw [List.isEmpty_map,List.isEmpty_eq_false_iff.mpr changes,List.length_map,Bool.not_false,Bool.true_and,
        if_neg efficient]
      exact ⟨Bool.not_eq_true _ |>.mp recording,changes,Bool.not_eq_true _ |>.mp efficient,rfl⟩

theorem summarize_lists (lists : container.listsSince baseline = true) : container.summarizeChanges baseline =
    (container.changesSince baseline).map (kind.storage.populateChangeValue container.values) := by
  obtain ⟨recording,_,_,efficient⟩ := listsSince_iff.mp lists
  unfold ReplicatedContainer.summarizeChanges
  rw [recording,if_neg Bool.false_ne_true]
  dsimp only
  rw [List.length_map,efficient,Bool.and_false,if_neg Bool.false_ne_true]

-- The change list that is sent: changes without a sequence, no more than the values.
structure Sendable (container : ReplicatedContainer kind.storage) (changes : List (Change K V)) : Prop where
  unsequenced : ∀ change ∈ changes, change.sequence = .invalid
  several : changes ≠ []
  few : changes.length < vlqTwoByteChangeLimit
  bounded : changes.length ≤ kind.storage.len container.values

theorem listed_sendable {sender : Sender kind.storage} (own : Local sender)
    (lists : sender.working.listsSince baseline = true) :
    Sendable sender.working ((sender.working.changesSince baseline).map
      (kind.storage.populateChangeValue sender.working.values)) := by
  obtain ⟨recording,several,few,efficient⟩ := listsSince_iff.mp lists
  refine ⟨?_,?_,?_,?_⟩
  · intro change member
    obtain ⟨recorded,present,rfl⟩ := List.mem_map.mp member
    exact (populate_sequence _ _ recorded).trans (changesSince_unsequenced own recording recorded present)
  · exact fun empty => several (List.map_eq_nil_iff.mp empty)
  · rw [List.length_map]
    exact few
  · rw [List.length_map]
    exact efficient_le few efficient

variable [Inhabited V]

theorem received_recorded (edit : Edit K V) :
    container.received edit.recorded = kind.storage.carried container.values edit.recorded := by
  cases edit <;> rfl

-- A change list conveys what its changes make of the known values.
theorem conveys_list {changes : List (Change K V)} (unsequenced : ∀ change ∈ changes, change.sequence = .invalid)
    (several : changes ≠ []) (room : changes.length ≤ cap) (small : changes.length < 2^32)
    {known now : kind.storage.Values} :
    Conveys kind key_codec value_codec cap (container.marshalChanges key_codec value_codec changes) known now ↔
      kind.storage.Same (kind.storage.applyChanges known (changes.map container.received)) now := by
  obtain ⟨bytes,written,read⟩ := container.changes_back key_codec value_codec unsequenced several room small
  have delta : (ReplicatedContainer.decodedChanges (changes.map container.received) :
      ReplicatedContainer kind.storage).isDelta = true := by
    cases changes with
    | nil => exact absurd rfl several
    | cons change changes => rfl
  constructor
  · rintro ⟨other,decoded,same,read_other,conveyed⟩
    cases written.symm.trans same
    cases (read_other []).symm.trans (read [])
    rcases conveyed with ⟨snapshot,_⟩ | ⟨_,leads⟩
    · rw [delta] at snapshot
      cases snapshot
    · exact leads known (kind.same_refl known)
  · intro leads
    refine ⟨bytes,_,written,read,.inr ⟨delta,?_⟩⟩
    exact fun receiver same => kind.same_trans (kind.applyChanges_same same _) leads

-- For a change list of recorded edits that depends on where the vector's elements
-- stand.
theorem conveys_changes {edits : List (Edit K V)} {changes : List (Change K V)}
    (sent : changes.map container.received = (edits.map Edit.recorded).map (kind.storage.carried container.values))
    (unsequenced : ∀ change ∈ changes, change.sequence = .invalid) (several : changes ≠ []) (room : changes.length ≤ cap)
    (small : changes.length < 2^32) {known : kind.storage.Values}
    (current : kind.storage.applyEdits known edits = container.values) :
    Conveys kind key_codec value_codec cap (container.marshalChanges key_codec value_codec changes) known container.values ↔
      kind.InPlace (edits.map Edit.recorded) known container.values := by
  rw [conveys_list unsequenced several room small,sent,kind.replays current]

theorem populated_recorded (edit : Edit K V) :
    container.received (kind.storage.populateChangeValue container.values edit.recorded) =
      kind.storage.carried container.values edit.recorded := by
  unfold ContainerStorage.populateChangeValue ReplicatedContainer.received ReplicatedContainer.sentValue
    ContainerStorage.carried
  cases edit with
  | remove key => rfl
  | add key value =>
    cases found : kind.storage.changeValue container.values key <;>
      simp [Edit.recorded,Change.isLive,Change.key,Change.value,Change.fillValue,Change.delta,found]
  | update key value =>
    cases found : kind.storage.changeValue container.values key <;>
      simp [Edit.recorded,Change.isLive,Change.key,Change.value,Change.fillValue,Change.delta,found]

-- Which of its two forms the source sends: nothing since the baseline, too much of
-- it and an invalid baseline give a snapshot.
theorem marshalSince_forms (container : ReplicatedContainer kind.storage) (baseline : SequenceNumber) :
    container.marshalSince key_codec value_codec baseline =
      if baseline.isValid && container.listsSince baseline then
        container.marshalChanges key_codec value_codec
          ((container.changesSince baseline).map (kind.storage.populateChangeValue container.values))
      else container.marshalFull key_codec value_codec := by
  unfold ReplicatedContainer.marshalSince
  cases baseline.isValid with
  | false => rfl
  | true =>
    rw [if_pos rfl,Bool.true_and]
    dsimp only
    by_cases lists : container.listsSince baseline = true
    · obtain ⟨_,several,few,_⟩ := listsSince_iff.mp lists
      rw [if_pos lists,summarize_lists lists,List.isEmpty_map,List.isEmpty_eq_false_iff.mpr several,List.length_map,
        decide_eq_false (Nat.not_le.mpr few)]
      rfl
    · rw [if_neg lists]
      split
      · rfl
      · rename_i sent
        rw [Bool.or_eq_true_iff,not_or,decide_eq_true_eq,Nat.not_le] at sent
        have several : container.summarizeChanges baseline ≠ [] := fun empty => sent.1 (List.isEmpty_iff.mpr empty)
        obtain ⟨recording,changes,efficient,same⟩ := summarize_nonempty several
        rw [same,List.length_map] at sent
        exact absurd (listsSince_iff.mpr ⟨recording,changes,sent.2,efficient⟩) lists

-- A container whose journal has the edits since the baseline conveys its values just
-- when the written elements of a vector stand in place, if a change list is sent.
theorem marshalSince_conveys {sender : Sender kind.storage} (own : Local sender) {known : kind.storage.Values}
    (since : Since baseline known sender) (room : kind.storage.len sender.working.values ≤ cap)
    (small : kind.storage.len sender.working.values < 2^32) :
    Conveys kind key_codec value_codec cap (sender.working.marshalSince key_codec value_codec baseline) known
        sender.working.values ↔
      (baseline.isValid = true → sender.working.listsSince baseline = true →
        kind.InPlace (sender.working.changesSince baseline) known sender.working.values) := by
  rw [marshalSince_forms]
  by_cases listed : (baseline.isValid && sender.working.listsSince baseline) = true
  · rw [if_pos listed]
    obtain ⟨valid,lists⟩ := Bool.and_eq_true_iff.mp listed
    obtain ⟨recording,_,_,_⟩ := listsSince_iff.mp lists
    obtain ⟨edits,current,changes⟩ := since_working own since recording
    obtain ⟨unsequenced,several,few,bounded⟩ := listed_sendable own lists
    have sent : ((sender.working.changesSince baseline).map (kind.storage.populateChangeValue sender.working.values)).map
        sender.working.received = (edits.map Edit.recorded).map (kind.storage.carried sender.working.values) := by
      rw [changes,List.map_map,List.map_map,List.map_map]
      exact List.map_congr_left fun edit _ => populated_recorded edit
    have short := Nat.lt_of_le_of_lt bounded small
    rw [conveys_changes sent unsequenced several (Nat.le_trans bounded room) short current,← changes]
    exact ⟨fun in_place _ _ => in_place,fun in_place => in_place valid lists⟩
  · rw [if_neg listed]
    exact ⟨fun _ valid lists => absurd (Bool.and_eq_true_iff.mpr ⟨valid,lists⟩) listed,
      fun _ => conveys_full room small known⟩

end Sent

section Runs
variable {K V : Type} {storage : ContainerStorage K V}

theorem merge_all (earlier : List (SenderAction K V)) (later : List (SenderAction K V)) :
    mergeSequences (earlier ++ later) = mergeSequences earlier ++ mergeSequences later := List.filterMap_append

-- At the merge of the baseline the journal has nothing newer, and what is merged
-- after it is newer.
theorem since_baseline {actions : List (SenderAction K V)} {baseline : SequenceNumber}
    (start : Sender storage) (own : Local start) (fresh : start.merged.journal.sets = [])
    (reached : ∀ seq ∈ mergeSequences actions, baseline.less seq = false) :
    Since baseline (start.run actions).merged.values (start.run actions) := by
  refine ⟨[],rfl,?_⟩
  have none_before : ∀ change_set ∈ start.merged.journal.sets, change_set.sequence ∈ ([] : List SequenceNumber) := by
    rw [fresh]
    exact fun _ present => nomatch present
  have sequences := journal_sequences own actions [] none_before
  have old : ((start.run actions).merged.journal.sets.filter fun change_set => baseline.less change_set.sequence) = [] := by
    rw [List.filter_eq_nil_iff]
    intro change_set present
    rw [reached _ (sequences change_set present)]
    exact Bool.false_ne_true
  unfold Journal.since
  rw [old]
  rfl

theorem increasing_split {before after : List (SenderAction K V)} {baseline : SequenceNumber}
    (increasing : Increasing (before ++ .merge baseline :: after)) :
    (∀ seq ∈ mergeSequences (before ++ [.merge baseline]), baseline.less seq = false) ∧
      ∀ seq ∈ mergeSequences after, baseline.less seq = true := by
  have rising := increasing.rising
  rw [merge_all] at rising
  obtain ⟨_,rest,across⟩ := List.pairwise_append.mp rising
  have cons : mergeSequences (.merge baseline :: after) = baseline :: mergeSequences after := rfl
  rw [cons] at rest across
  refine ⟨?_,(List.pairwise_cons.mp rest).1⟩
  intro seq present
  rw [merge_all] at present
  rcases List.mem_append.mp present with earlier | last
  · have below := across seq earlier baseline List.mem_cons_self
    by_contra above
    have both := SequenceNumber.less_trans below (Bool.not_eq_false _ ▸ above)
    rw [SequenceNumber.not_less_self] at both
    cases both
  · cases List.mem_singleton.mp last
    exact SequenceNumber.not_less_self baseline

-- The bytes sent for a baseline convey the values if, should a change list be sent,
-- no merge since the baseline starts anew or drops a change set newer than it, and
-- every element of a vector that was written stands where it was written.
theorem container_delta_sound [Inhabited V] (kind : StorageKind V K) (key_codec : Codec MarshalerError K)
    (value_codec : Codec MarshalerError V) (cap : Nat) (last_modified : SequenceNumber) (values : kind.storage.Values)
    (before after : List (SenderAction K V)) (baseline : SequenceNumber) {base sender : Sender kind.storage}
    (increasing : Increasing (before ++ .merge baseline :: after))
    (merged : (Sender.start last_modified values).run (before ++ [.merge baseline]) = base)
    (reached : base.run after = sender) (room : kind.storage.len sender.working.values ≤ cap)
    (small : kind.storage.len sender.working.values < 2^32)
    (kept : sender.working.listsSince baseline = true →
      EachAction Sender.step base after (fun sender action => sender.keepsSince baseline action = true) ∧
        kind.InPlace (sender.working.changesSince baseline) base.working.values sender.working.values) :
    Conveys kind key_codec value_codec cap (sender.working.marshalSince key_codec value_codec baseline)
      base.working.values sender.working.values := by
  obtain ⟨earlier,later⟩ := increasing_split increasing
  have own_start := local_start last_modified values
  have own_base : Local base := merged ▸ local_run own_start _
  by_cases listed : sender.working.listsSince baseline = true
  · obtain ⟨keeps,in_place⟩ := kept listed
    have same : base.working.values = base.merged.values := by
      rw [← merged]
      unfold Sender.run
      rw [List.foldl_append]
      rfl
    have since : Since baseline base.working.values base := by
      rw [same,← merged]
      exact since_baseline (Sender.start last_modified values) own_start rfl earlier
    have own_sender : Local sender := reached ▸ local_run own_base after
    have since_sender : Since baseline base.working.values sender := reached ▸ since_run own_base since after later keeps
    exact (marshalSince_conveys own_sender since_sender room small).mpr fun _ _ => in_place
  · rw [marshalSince_forms,Bool.eq_false_iff.mpr listed,Bool.and_false,if_neg Bool.false_ne_true]
    exact conveys_full room small _

end Runs

section Examples

def bytesSender (values : byteVec.storage.Values) (actions : List (SenderAction (BitVec 64) UInt8)) :
    Sender byteVec.storage :=
  (Sender.start .validNonSequence values).run actions

def updateAndMerge (place : Nat) : List (SenderAction (BitVec 64) UInt8) :=
  [.edit (.update (BitVec.ofNat 64 place) 7),.merge (.seq (BitVec.ofNat 64 (place + 2)))]

def three : byteVec.storage.Values := ([10,20,30] : List UInt8)

theorem increasing_update : Increasing (.merge (.seq 1) :: updateAndMerge 0) := by
  refine ⟨?_,by decide⟩
  intro seq present
  rcases List.mem_cons.mp present with rfl | later
  · exact ⟨1,rfl,by decide,by decide⟩
  · cases List.mem_singleton.mp later
    exact ⟨2,rfl,by decide,by decide⟩

theorem container_delta_sound_update :
    Conveys byteVec indexKeys byteValues wireVecCap
      ((bytesSender three (.merge (.seq 1) :: updateAndMerge 0)).working.marshalSince indexKeys byteValues (.seq 1))
      three ([7,20,30] : List UInt8) := by
  refine container_delta_sound byteVec indexKeys byteValues wireVecCap .validNonSequence three [] (updateAndMerge 0)
    (.seq 1) increasing_update rfl rfl (by decide) (by decide) ?_
  intro _
  have in_place : Vec.InPlace [.update 0 none .invalid] ([10,20,30] : List UInt8) [7,20,30] := by decide
  exact ⟨each_cons.mpr ⟨rfl,each_cons.mpr ⟨rfl,each_nil⟩⟩,in_place⟩

-- Three values, one more at the end, and the first removed.
def moved : Sender byteVec.storage :=
  bytesSender three [.merge (.seq 1),.edit (.add 3 40),.edit (.remove 0),.merge (.seq 2)]

def many : byteVec.storage.Values := List.replicate 20 (1 : UInt8)

-- A baseline with eleven change sets after it.
def evicted : Sender byteVec.storage := bytesSender many (.merge (.seq 1) :: (List.range 11).flatMap updateAndMerge)

theorem moved_or_evicted_lost :
    ¬Conveys byteVec indexKeys byteValues wireVecCap (moved.working.marshalSince indexKeys byteValues (.seq 1)) three
      moved.working.values ∧
    ¬Conveys byteVec indexKeys byteValues wireVecCap (evicted.working.marshalSince indexKeys byteValues (.seq 1)) many
      evicted.working.values := by
  constructor
  · rw [marshalSince_forms,if_pos (by decide +kernel),conveys_list (by decide) (by decide) (by decide) (by decide)]
    decide
  · rw [marshalSince_forms,if_pos (by decide +kernel),conveys_list (by decide +kernel) (by decide +kernel)
      (by decide +kernel) (by decide +kernel)]
    decide +kernel

end Examples
end NwNetwork.Serialize
