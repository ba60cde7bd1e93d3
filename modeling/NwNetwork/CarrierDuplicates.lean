import NwNetwork.CarrierAckSafety

namespace NwNetwork.Carrier
namespace DatagramHistoryList
variable {history after final : DatagramHistoryList} {base newest seq id : SequenceNumber}

-- How far a number lies ahead of the base of the half space.
theorem span_distance (one : sequenceNumberSequentialDistance base seq < 32768)
    (other : sequenceNumberSequentialDistance base id < 32768)
    (near : sequenceNumberSequentialDistance seq id < 32768) :
    sequenceNumberSequentialDistance base id =
      sequenceNumberSequentialDistance base seq + sequenceNumberSequentialDistance seq id := by
  unfold sequenceNumberSequentialDistance at *
  simp only [BitVec.toNat_sub] at *
  have := base.isLt
  have := seq.isLt
  have := id.isLt
  omega

theorem span_ahead (one : sequenceNumberSequentialDistance base seq < 32768)
    (other : sequenceNumberSequentialDistance base id < 32768)
    (order : sequenceNumberSequentialDistance base seq ≤ sequenceNumberSequentialDistance base id) :
    sequenceNumberSequentialDistance seq id =
      sequenceNumberSequentialDistance base id - sequenceNumberSequentialDistance base seq := by
  unfold sequenceNumberSequentialDistance at *
  simp only [BitVec.toNat_sub] at *
  have := base.isLt
  have := seq.isLt
  have := id.isLt
  omega

theorem distance_behind (newest : SequenceNumber) (small : k ≤ 511) :
    sequenceNumberSequentialDistance (behind newest k) newest = k := by
  have := newest.isLt
  unfold sequenceNumberSequentialDistance
  simp only [BitVec.toNat_sub,behind_toNat newest (show k ≤ 65536 by omega)]
  omega

-- The number is still in its slot, or so far behind the newest one that it cannot
-- arrive in order. Neither has been acknowledged more than `writes` times.
inductive Remembers (history : DatagramHistoryList) (seq : SequenceNumber) (writes : Nat) : Prop where
  | held : history.isValid (slot seq) = true → history.numberAt (slot seq) = seq →
      (history.elements (slot seq)).numAcksSent ≤ writes → Remembers history seq writes
  | passed : history.numActiveElements ≠ 0 →
      512 ≤ sequenceNumberSequentialDistance seq (history.numberAt history.lastIndex) →
      sequenceNumberSequentialDistance seq (history.numberAt history.lastIndex) < 32768 →
      (history.elements history.lastIndex).numAcksSent ≤ writes → Remembers history seq writes

theorem kept_framed (kept : Kept history) (holds : history.numActiveElements ≠ 0) :
    ∃ newest n, Framed history newest n := by
  cases kept with
  | empty none_left => exact absurd none_left holds
  | framed framed => exact ⟨_,_,framed⟩

theorem remembers_write (ran : writeAckHistory history = some (frame,lastToAck,after)) (kept : Kept history)
    (remembers : Remembers history seq writes) (few : writes + 1 < 3) : Remembers after seq (writes + 1) := by
  obtain ⟨kept_after,shrinks,counts,ends⟩ := writeAckHistory_kept ran kept
  cases remembers with
  | held valid number acks =>
    obtain ⟨stays,count⟩ := counts _ valid (by unfold maxNumAcks; omega)
    exact .held stays ((shrinks.numbers _).trans number) (by push_cast; omega)
  | passed holds far half acks =>
    obtain ⟨newest,n,framed⟩ := kept_framed kept holds
    have early : (history.elements history.lastIndex).numAcksSent + 1 < maxNumAcks := by
      unfold maxNumAcks
      omega
    obtain ⟨stays,count⟩ := counts _ framed.newestIn early
    have lastIndex : after.lastIndex = history.lastIndex := congrArg sub (ends holds early)
    have number : after.numberAt after.lastIndex = history.numberAt history.lastIndex := by
      rw [lastIndex,shrinks.numbers]
    refine .passed (kept_holds kept_after stays) ?_ ?_ ?_
    · rwa [number]
    · rwa [number]
    · rw [lastIndex]
      push_cast
      omega

-- The number that has just arrived is newer than the last one.
theorem remembers_newest (inserted : Inserted history after id) (place : after.lastIndex = slot id)
    (far : 512 ≤ sequenceNumberSequentialDistance seq id) (half : sequenceNumberSequentialDistance seq id < 32768) :
    Remembers after seq writes := by
  have valid := entry_number inserted.entry
  have number : after.numberAt after.lastIndex = id := by
    unfold numberAt
    rw [place,inserted.entry]
  refine .passed (kept_holds inserted.kept valid) ?_ ?_ ?_
  · rwa [number]
  · rwa [number]
  · rw [place,inserted.entry]
    exact Int.natCast_nonneg writes

theorem remembers_insert (ran : history.insert id = some (fresh,after)) (kept : Kept history)
    (ordered : InOrder history id) (remembers : Remembers history seq writes)
    (seq_in : sequenceNumberSequentialDistance base seq < 32768)
    (fresh_in : fresh = true → sequenceNumberSequentialDistance base id < 32768)
    (known : ∀ offset, history.isValid offset = true →
      sequenceNumberSequentialDistance base (history.numberAt offset) < 32768) :
    Remembers after seq writes ∧ (id = seq → fresh = false) := by
  rcases insert_cases ran kept ordered with ⟨rfl,rfl,_⟩ | ⟨rfl,inserted⟩
  · exact ⟨remembers,fun _ => rfl⟩
  · have id_in := fresh_in rfl
    cases remembers with
    | held valid number acks =>
      have holds := kept_holds kept valid
      obtain ⟨newest,n,framed⟩ := kept_framed kept holds
      refine ⟨?_,?_⟩
      · rcases inserted.old _ valid with same | ⟨older,place,newer⟩
        · refine .held ?_ ?_ ?_
          · unfold isValid
            rw [same]
            exact valid
          · unfold numberAt
            rw [same]
            exact number
          · rw [same]
            exact acks
        · -- The evicted number lies in the window behind the last one.
          have last_in := known _ framed.newestIn
          rw [last_number framed] at newer last_in
          obtain ⟨k,small,_,spot⟩ := framed.within _ valid
          have size := framed.size
          have near := distance_behind newest (show k ≤ 511 by omega)
          rw [←spot,number] at near
          have ahead_one := span_distance seq_in last_in (by omega)
          have ahead_two := span_distance last_in id_in ((seqLessThan_iff _ _).mp newer).2
          have whole := span_ahead seq_in id_in (by omega)
          rw [number] at older
          have behind_bound := (seqLessThan_iff _ _).mp older
          refine remembers_newest inserted place ?_ (by omega)
          unfold sequenceNumberSequentialDistance at behind_bound whole ⊢
          simp only [BitVec.toNat_sub] at behind_bound whole ⊢
          have := seq.isLt
          have := id.isLt
          simp at behind_bound
          omega
      · intro same
        rw [same] at inserted
        exact absurd ⟨valid,number⟩ (inserted.fresh holds)
    | passed holds far half acks =>
      obtain ⟨newest,n,framed⟩ := kept_framed kept holds
      have last_in := known _ framed.newestIn
      have newer_case : seqLessThan (history.numberAt history.lastIndex) id = true → after.lastIndex = slot id →
          Remembers after seq writes := by
        intro newer place
        have ahead_one := span_distance seq_in last_in half
        have ahead_two := span_distance last_in id_in ((seqLessThan_iff _ _).mp newer).2
        have whole := span_ahead seq_in id_in (by omega)
        exact remembers_newest inserted place (by omega) (by omega)
      refine ⟨?_,?_⟩
      · rcases inserted.newest with ⟨place,none_left | newer⟩ | last
        · exact absurd none_left holds
        · exact newer_case newer place
        · have lastIndex : after.lastIndex = history.lastIndex := congrArg sub last
          rcases inserted.old _ framed.newestIn with same | ⟨_,place,newer⟩
          · have number : after.numberAt after.lastIndex = history.numberAt history.lastIndex := by
              rw [lastIndex]
              unfold numberAt
              rw [same]
            have stays : after.isValid history.lastIndex = true := by
              unfold isValid
              rw [same]
              exact framed.newestIn
            refine .passed (kept_holds inserted.kept stays) ?_ ?_ ?_
            · rwa [number]
            · rwa [number]
            · rw [lastIndex,same]
              exact acks
          · exact newer_case newer place
      · intro same
        rw [last_number framed] at far half
        have allowed := ordered holds
        rw [last_number framed,first_number framed.toWindow framed.oldest,same] at allowed
        rcases allowed with ⟨newer,_⟩ | inside
        · have ahead := (seqLessThan_iff _ _).mp newer
          unfold sequenceNumberSequentialDistance at ahead far half
          simp only [BitVec.toNat_sub] at ahead far half
          have := seq.isLt
          have := newest.isLt
          omega
        · obtain ⟨k,small,spot⟩ := behind_of_inside framed.size inside
          have size := framed.size
          rw [spot,distance_behind newest (by omega)] at far
          omega

end DatagramHistoryList

def isFrame : HistoryEvent → Bool
  | .writeAckHistory _ => true
  | .insert _ _ => false

def framesWritten (steps : List (DatagramHistoryList × HistoryEvent)) : Nat :=
  steps.countP fun step => isFrame step.2

section Run
open DatagramHistoryList
variable {history middle final : DatagramHistoryList} {base seq id : SequenceNumber}

-- All elements lie in the half space.
def Spans (base : SequenceNumber) (history : DatagramHistoryList) : Prop :=
  ∀ offset, history.isValid offset = true → sequenceNumberSequentialDistance base (history.numberAt offset) < 32768

theorem insert_spans (ran : history.insert id = some (fresh,middle)) (kept : Kept history) (ordered : InOrder history id)
    (spans : Spans base history) (fresh_in : fresh = true → sequenceNumberSequentialDistance base id < 32768) :
    Kept middle ∧ Spans base middle := by
  rcases insert_cases ran kept ordered with ⟨_,rfl,_⟩ | ⟨rfl,inserted⟩
  · exact ⟨kept,spans⟩
  · refine ⟨inserted.kept,?_⟩
    intro offset valid
    rcases inserted.new offset valid with rfl | ⟨before,same⟩
    · unfold numberAt
      rw [inserted.entry]
      exact fresh_in rfl
    · unfold numberAt
      rw [same]
      exact spans offset before

theorem write_spans (ran : writeAckHistory history = some (frame,lastToAck,middle)) (kept : Kept history)
    (spans : Spans base history) : Kept middle ∧ Spans base middle := by
  obtain ⟨kept_after,shrinks,_⟩ := writeAckHistory_kept ran kept
  refine ⟨kept_after,?_⟩
  intro offset valid
  rw [shrinks.numbers offset]
  exact spans offset (shrinks.valid offset valid)

theorem span_tail (span : ∀ seq ∈ acceptedIn (step :: steps), sequenceNumberSequentialDistance base seq < 32768) :
    ∀ seq ∈ acceptedIn steps, sequenceNumberSequentialDistance base seq < 32768 := by
  intro seq present
  apply span seq
  unfold acceptedIn
  rw [List.flatMap_cons]
  exact List.mem_append_right _ present

theorem span_head (span : ∀ seq ∈ acceptedIn ((history,.insert id fresh) :: steps),
    sequenceNumberSequentialDistance base seq < 32768) :
    fresh = true → sequenceNumberSequentialDistance base id < 32768 := by
  rintro rfl
  exact span id List.mem_cons_self

theorem run_spans (run : HistoryRun history (before ++ steps) final) (ordered : ∀ step ∈ before, ArrivesInOrder step)
    (kept : Kept history) (spans : Spans base history)
    (span : ∀ seq ∈ acceptedIn before, sequenceNumberSequentialDistance base seq < 32768) :
    ∃ middle, HistoryRun middle steps final ∧ Kept middle ∧ Spans base middle := by
  induction before generalizing history with
  | nil => exact ⟨history,run,kept,spans⟩
  | cons step before ih =>
    have later := fun step present => ordered step (List.mem_cons_of_mem _ present)
    cases run with
    | insert ran rest =>
      obtain ⟨kept,spans⟩ := insert_spans ran kept (ordered _ List.mem_cons_self) spans (span_head span)
      exact ih rest later kept spans (span_tail span)
    | writeAck ran rest =>
      obtain ⟨kept,spans⟩ := write_spans ran kept spans
      exact ih rest later kept spans (span_tail span)

-- As long as a number is remembered it is refused.
theorem remembered_refused (run : HistoryRun history (between ++ (place,.insert seq fresh) :: later) final)
    (ordered : ∀ step ∈ between ++ [(place,.insert seq fresh)], ArrivesInOrder step)
    (kept : Kept history) (spans : Spans base history) (seq_in : sequenceNumberSequentialDistance base seq < 32768)
    (span : ∀ seq ∈ acceptedIn between, sequenceNumberSequentialDistance base seq < 32768)
    (remembers : Remembers history seq writes) (few : writes + framesWritten between < 3) : fresh = false := by
  induction between generalizing history writes with
  | nil =>
    cases run with
    | insert ran rest =>
      exact (remembers_insert ran kept (ordered _ List.mem_cons_self) remembers seq_in (fun _ => seq_in) spans).2 rfl
  | cons step between ih =>
    have later := fun step present => ordered step (List.mem_cons_of_mem _ present)
    cases run with
    | insert ran rest =>
      have arrives := ordered _ List.mem_cons_self
      obtain ⟨still,_⟩ := remembers_insert ran kept arrives remembers seq_in (span_head span) spans
      obtain ⟨kept,spans⟩ := insert_spans ran kept arrives spans (span_head span)
      exact ih rest later kept spans (span_tail span) still few
    | writeAck ran rest =>
      unfold framesWritten at few
      rw [List.countP_cons_of_pos rfl] at few
      have still := remembers_write ran kept remembers (by omega)
      obtain ⟨kept,spans⟩ := write_spans ran kept spans
      exact ih rest later kept spans (span_tail span) still (by unfold framesWritten; omega)

end Run

theorem accepted_again {history one other : DatagramHistoryList} {seq : SequenceNumber}
    (run : HistoryRun DatagramHistoryList.new
      (before ++ (one,.insert seq true) :: (between ++ (other,.insert seq true) :: later)) history)
    (ordered : ∀ step ∈ before ++ (one,.insert seq true) :: (between ++ (other,.insert seq true) :: later),
      ArrivesInOrder step)
    (span : HalfSpan (acceptedIn (before ++ (one,.insert seq true) :: (between ++ (other,.insert seq true) :: later)))) :
    maxNumAcks ≤ framesWritten between := by
  unfold maxNumAcks
  obtain ⟨base,span⟩ := span
  have early : ∀ seq ∈ acceptedIn before, sequenceNumberSequentialDistance base seq < 32768 := by
    intro number present
    exact span number (by simp [acceptedIn] at present ⊢; exact .inl present)
  have middle_in : ∀ number ∈ acceptedIn between, sequenceNumberSequentialDistance base number < 32768 := by
    intro number present
    exact span number (by simp [acceptedIn] at present ⊢; exact .inr (.inr (.inl present)))
  have seq_in : sequenceNumberSequentialDistance base seq < 32768 :=
    span seq (by simp [acceptedIn,acceptedBy])
  have spans : Spans base DatagramHistoryList.new := by
    intro offset valid
    simp [DatagramHistoryList.isValid,DatagramHistoryList.new] at valid
  obtain ⟨start,rest,kept,spans⟩ := run_spans run (fun step present => ordered step (List.mem_append_left _ present))
    DatagramHistoryList.new_kept spans early
  cases rest with
  | insert ran rest =>
    have arrives := ordered (one,.insert seq true) (List.mem_append_right _ List.mem_cons_self)
    obtain ⟨kept_after,spans_after⟩ := insert_spans ran kept arrives spans (fun _ => seq_in)
    rcases DatagramHistoryList.insert_cases ran kept arrives with ⟨refused,_⟩ | ⟨_,inserted⟩
    · cases refused
    · have remembers : DatagramHistoryList.Remembers _ seq 0 := .held (DatagramHistoryList.entry_number inserted.entry)
        (by unfold DatagramHistoryList.numberAt; rw [inserted.entry]) (by rw [inserted.entry]; exact Int.le_refl 0)
      by_contra few
      have tail : ∀ step ∈ between ++ [(other,.insert seq true)], ArrivesInOrder step := by
        intro step present
        refine ordered step (List.mem_append_right _ (List.mem_cons_of_mem _ ?_))
        rcases List.mem_append.mp present with inside | last
        · exact List.mem_append_left _ inside
        · rw [List.mem_singleton.mp last]
          exact List.mem_append_right _ List.mem_cons_self
      have refused := remembered_refused rest tail kept_after spans_after seq_in middle_in remembers (by omega)
      cases refused

-- A number that has been acknowledged three times is forgotten.
def forgottenCalls : List HistoryCall :=
  [.insert 5,.writeAckHistory,.writeAckHistory,.writeAckHistory,.insert 5]

theorem accepted_again_forgotten : ∃ one between other history,
    HistoryRun DatagramHistoryList.new
      ([] ++ (one,.insert 5 true) :: (between ++ (other,.insert 5 true) :: [])) history ∧
    maxNumAcks ≤ framesWritten between := by
  have run : ∃ one two three four five history,
      HistoryRun DatagramHistoryList.new ([] ++ (one,.insert 5 true) ::
        ([(two,.writeAckHistory [0,0,5]),(three,.writeAckHistory [0,0,5]),(four,.writeAckHistory [0,0,5])] ++
          (five,.insert 5 true) :: [])) history ∧ one.numActiveElements = 0 ∧ five.numActiveElements = 0 :=
    ⟨_,_,_,_,_,_,.insert rfl (.writeAck rfl (.writeAck rfl (.writeAck rfl (.insert rfl .stop)))),rfl,rfl⟩
  obtain ⟨one,two,three,four,five,history,run,fresh,emptied⟩ := run
  refine ⟨one,_,five,history,run,accepted_again run ?_ ⟨5,?_⟩⟩
  · intro step present
    simp only [List.nil_append,List.cons_append,List.mem_cons,List.not_mem_nil,or_false] at present
    rcases present with rfl | rfl | rfl | rfl | rfl
    · exact fun holds => absurd fresh holds
    · trivial
    · trivial
    · trivial
    · exact fun holds => absurd emptied holds
  · simp [acceptedIn,acceptedBy,sequenceNumberSequentialDistance]

theorem forgotten_number_accepted :
    ¬∀ (steps : List (DatagramHistoryList × HistoryEvent)) (history : DatagramHistoryList),
      HistoryRun DatagramHistoryList.new steps history → HalfSpan (acceptedIn steps) →
      ∀ seq, (acceptedIn steps).count seq ≤ 1 := by
  intro always
  have made : (performAll DatagramHistoryList.new forgottenCalls).map (fun run => acceptedIn run.1) =
      some [5,5] := by decide
  obtain ⟨⟨steps,history⟩,run,accepted⟩ := Option.map_eq_some_iff.mp made
  dsimp only at accepted
  have once := always steps history (performAll_run run)
    ⟨5,by simp [accepted,sequenceNumberSequentialDistance]⟩ 5
  rw [accepted] at once
  exact absurd once (by decide)

end NwNetwork.Carrier
