import NwNetwork.HubBundleMessage
import Mathlib.Data.List.InsertIdx

namespace NwNetwork.Hub
open WireReader Serialize

abbrev InterestId := BitVec 16

inductive ControlCall where
  | fromIds (stop_replication_ids pause_replication_ids : List InterestId)
  | pushStopReplicationId (interest_id : InterestId)
  | pushPauseReplicationId (interest_id : InterestId)
  | reset
  | removePendingStopId (interest_id : InterestId)

-- Two plain lists, and what they answer to a call: it is refused, or it is done, and
-- a removal says whether it has found the id.
structure TwoLists where
  stops : List InterestId
  pauses : List InterestId

inductive ControlOutcome where
  | done
  | removed (found : Bool)
  | refused (error : MarshalerError)

namespace TwoLists

def count (lists : TwoLists) : Nat := lists.stops.length + lists.pauses.length

def call (lists : TwoLists) : ControlCall → TwoLists × ControlOutcome
  | .fromIds stops pauses =>
    if stops.length + pauses.length ≤ maxReplicationControlIds then (⟨stops,pauses⟩,.done)
    else (lists,.refused (.containerOverflow (stops.length + pauses.length) maxReplicationControlIds))
  | .pushStopReplicationId interest_id =>
    if lists.count < maxReplicationControlIds then (⟨lists.stops ++ [interest_id],lists.pauses⟩,.done)
    else (lists,.refused (.containerOverflow (lists.count + 1) maxReplicationControlIds))
  | .pushPauseReplicationId interest_id =>
    if lists.count < maxReplicationControlIds then (⟨lists.stops,lists.pauses ++ [interest_id]⟩,.done)
    else (lists,.refused (.containerOverflow (lists.count + 1) maxReplicationControlIds))
  | .reset => (⟨[],[]⟩,.done)
  | .removePendingStopId interest_id => (⟨lists.stops.erase interest_id,lists.pauses⟩,.removed (lists.stops.elem interest_id))

def run (calls : List ControlCall) : TwoLists := calls.foldl (fun lists action => (lists.call action).1) ⟨[],[]⟩

end TwoLists

namespace ReplicationControlData

-- A refused call has changed nothing when it returns; a refused `from_ids` makes
-- nothing that could be put in the old one's place.
def answered (control : ReplicationControlData) (result : Except MarshalerError ReplicationControlData) :
    ReplicationControlData × ControlOutcome :=
  match result with
  | .ok control => (control,.done)
  | .error error => (control,.refused error)

def call (control : ReplicationControlData) : ControlCall → ReplicationControlData × ControlOutcome
  | .fromIds stops pauses => control.answered (fromIds stops pauses)
  | .pushStopReplicationId interest_id => control.answered (control.pushStopReplicationId interest_id)
  | .pushPauseReplicationId interest_id => control.answered (control.pushPauseReplicationId interest_id)
  | .reset => (control.reset,.done)
  | .removePendingStopId interest_id =>
    ((control.removePendingStopId interest_id).2,.removed (control.removePendingStopId interest_id).1)

def run (calls : List ControlCall) : ReplicationControlData :=
  calls.foldl (fun control action => (control.call action).1) default

def lists (control : ReplicationControlData) : TwoLists := ⟨control.stopReplicationIds,control.pauseReplicationIds⟩

section Parts
variable {control : ReplicationControlData}

theorem parts_length (control : ReplicationControlData) : control.stopReplicationIds.length = control.pauseStart :=
  (List.length_take).trans (Nat.min_eq_left control.split)

theorem parts_whole (control : ReplicationControlData) :
    control.stopReplicationIds ++ control.pauseReplicationIds = control.interestIds :=
  List.take_append_drop _ _

theorem lists_count (control : ReplicationControlData) : control.lists.count = control.interestIds.length := by
  rw [← parts_whole control]
  exact List.length_append.symm

-- Data whose ids are these two lists, split between them.
theorem lists_of {stops pauses : List InterestId} (whole : control.interestIds = stops ++ pauses)
    (start : control.pauseStart = stops.length) : control.lists = ⟨stops,pauses⟩ := by
  unfold lists stopReplicationIds pauseReplicationIds
  rw [whole,start,List.take_left,List.drop_left]

theorem insertIdx_between (stops pauses : List InterestId) (interest_id : InterestId) :
    (stops ++ pauses).insertIdx stops.length interest_id = stops ++ [interest_id] ++ pauses := by
  induction stops with
  | nil => rfl
  | cons stop stops ih => exact congrArg (List.cons stop) ih

theorem not_found {stops : List InterestId} (absent : stops.findIdx? (· == interest_id) = none) : interest_id ∉ stops := by
  intro member
  have unequal := List.findIdx?_eq_none_iff.mp absent interest_id member
  rw [beq_self_eq_true] at unequal
  cases unequal

theorem erase_found {stops : List InterestId} (found : stops.findIdx? (· == interest_id) = some idx) :
    interest_id ∈ stops ∧ stops.erase interest_id = stops.eraseIdx idx := by
  induction stops generalizing idx with
  | nil => cases found
  | cons stop stops ih =>
    rw [List.findIdx?_cons] at found
    by_cases here : stop = interest_id
    · rw [if_pos (by simpa using here)] at found
      cases found
      rw [here]
      exact ⟨List.mem_cons_self,List.erase_cons_head _ _⟩
    · rw [if_neg (by simpa using here)] at found
      obtain ⟨place,later,rfl⟩ := Option.map_eq_some_iff.mp found
      obtain ⟨member,erased⟩ := ih later
      refine ⟨List.mem_cons_of_mem stop member,?_⟩
      rw [List.erase_cons_tail (by simpa using here),erased]
      rfl

theorem answered_refused {result : Except MarshalerError ReplicationControlData}
    (refused : (control.answered result).2 = .refused error) : (control.answered result).1 = control := by
  cases result with
  | ok other => cases refused
  | error error => rfl

end Parts

-- Each call does on the one list what it does on the two.
theorem call_lists (control : ReplicationControlData) (action : ControlCall) :
    (control.call action).1.lists = (control.lists.call action).1 ∧
      (control.call action).2 = (control.lists.call action).2 := by
  have count := lists_count control
  have capped := control.capped
  cases action with
  | fromIds stops pauses =>
    unfold call TwoLists.call fromIds
    dsimp only
    by_cases room : stops.length + pauses.length ≤ maxReplicationControlIds
    · rw [dif_neg (Nat.not_lt.mpr room),if_pos room]
      refine ⟨lists_of rfl ?_,rfl⟩
      unfold maxReplicationControlIds at room
      exact Nat.mod_eq_of_lt (by omega)
    · rw [dif_pos (Nat.lt_of_not_le room),if_neg room]
      exact ⟨rfl,rfl⟩
  | pushStopReplicationId interest_id =>
    unfold call TwoLists.call pushStopReplicationId
    dsimp only
    rw [count]
    by_cases full : control.interestIds.length = maxReplicationControlIds
    · rw [dif_neg (not_not.mpr full),if_neg (Nat.not_lt.mpr (Nat.le_of_eq full.symm))]
      exact ⟨rfl,rfl⟩
    · rw [dif_pos full,if_pos (Nat.lt_of_le_of_ne capped full)]
      refine ⟨lists_of ?_ ?_,rfl⟩
      · change control.interestIds.insertIdx control.pauseStart interest_id = _
        rw [← parts_whole control,← parts_length control]
        exact insertIdx_between _ _ _
      · refine (next_start full).trans ?_
        rw [List.length_append,← parts_length control]
        rfl
  | pushPauseReplicationId interest_id =>
    unfold call TwoLists.call pushPauseReplicationId
    dsimp only
    rw [count]
    by_cases full : control.interestIds.length = maxReplicationControlIds
    · rw [dif_neg (not_not.mpr full),if_neg (Nat.not_lt.mpr (Nat.le_of_eq full.symm))]
      exact ⟨rfl,rfl⟩
    · rw [dif_pos full,if_pos (Nat.lt_of_le_of_ne capped full)]
      refine ⟨lists_of ?_ (parts_length control).symm,rfl⟩
      change control.interestIds ++ [interest_id] = _
      rw [← parts_whole control,List.append_assoc]
      rfl
  | reset => exact ⟨rfl,rfl⟩
  | removePendingStopId interest_id =>
    unfold call TwoLists.call removePendingStopId
    dsimp only
    split
    · rename_i absent
      have unlisted := not_found absent
      refine ⟨?_,congrArg ControlOutcome.removed ?_⟩
      · rw [lists,List.erase_of_not_mem unlisted]
      · exact (Bool.eq_false_iff.mpr fun listed => unlisted (List.elem_iff.mp listed)).symm
    · rename_i idx found
      obtain ⟨member,erased⟩ := erase_found found
      have inside := (found_stop found).1
      refine ⟨lists_of ?_ ?_,congrArg ControlOutcome.removed (List.elem_eq_true_of_mem member).symm⟩
      · change control.interestIds.eraseIdx idx = control.stopReplicationIds.erase interest_id ++ control.pauseReplicationIds
        rw [erased,← parts_whole control]
        exact List.eraseIdx_append_of_lt_length (parts_length control ▸ inside) _
      · change (control.pauseStartIdx - 1).toNat = (control.stopReplicationIds.erase interest_id).length
        rw [List.length_erase_of_mem member,parts_length]
        unfold pauseStart at inside ⊢
        bv_omega

theorem run_lists (calls : List ControlCall) : (run calls).lists = TwoLists.run calls :=
  (List.foldl_hom lists fun control action => (call_lists control action).1.symm).symm

theorem split_rejected (len pause_start_idx : UInt8) (beyond : pause_start_idx.toNat > len.toNat) (rest : Bytes) :
    ∃ error, unmarshal (writeU8 len ++ writeU8 pause_start_idx ++ rest) = .error error := by
  unfold unmarshal
  rw [List.append_assoc,(u8_back len).bind]
  split
  · exact ⟨_,rfl⟩
  · rw [(u8_back pause_start_idx).bind,dif_pos beyond]
    exact ⟨_,rfl⟩

-- Over every run the one list holds what two lists would, answers as they would, and
-- is read back from its bytes.
theorem control_partition (calls : List ControlCall) :
    (run calls).pauseStart ≤ (run calls).interestIds.length ∧
      (run calls).interestIds.length ≤ maxReplicationControlIds ∧
      (run calls).stopReplicationIds = (TwoLists.run calls).stops ∧
      (run calls).pauseReplicationIds = (TwoLists.run calls).pauses ∧
      (∀ action, ((run calls).call action).2 = ((TwoLists.run calls).call action).2 ∧
        ∀ error, ((run calls).call action).2 = .refused error → ((run calls).call action).1 = run calls) ∧
      (∀ rest, unmarshal ((run calls).marshal ++ rest) = .ok (run calls,rest)) ∧
      ∀ len pause_start_idx : UInt8, pause_start_idx.toNat > len.toNat → ∀ rest,
        ∃ error, unmarshal (writeU8 len ++ writeU8 pause_start_idx ++ rest) = .error error := by
  have same := run_lists calls
  refine ⟨(run calls).split,(run calls).capped,congrArg TwoLists.stops same,congrArg TwoLists.pauses same,?_,
    fun rest => control_back _ rest,split_rejected⟩
  intro action
  rw [← same]
  refine ⟨(call_lists (run calls) action).2,?_⟩
  intro error refused
  cases action with
  | reset => cases refused
  | removePendingStopId interest_id => cases refused
  | fromIds stops pauses => exact answered_refused refused
  | pushStopReplicationId interest_id => exact answered_refused refused
  | pushPauseReplicationId interest_id => exact answered_refused refused

end ReplicationControlData
end NwNetwork.Hub
