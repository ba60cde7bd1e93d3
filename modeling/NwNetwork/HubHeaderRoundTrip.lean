import NwNetwork.HubFullFragment
import NwNetwork.HubWhitelist

namespace NwNetwork.Hub.ReplicatedState
open WireReader Serialize

section Groups

-- How many groups a call makes sure of.
def groupsOf : HeaderCall → Nat
  | .add _ group_idx => min (group_idx + 1) maxFiltergroupsPerReplicatedState
  | _ => 0

theorem access_length (hub : ReplicatedState) (group_idx : Nat) (cb : List FilterValue → Bool × List FilterValue) :
    (hub.accessTargets group_idx cb).filterGroups.length = hub.filterGroups.length :=
  List.length_modify _ _ _

theorem call_length (hub : ReplicatedState) (action : HeaderCall) :
    (hub.call action).filterGroups.length = max hub.filterGroups.length (groupsOf action) := by
  cases action with
  | add client_id group_idx => exact (access_length _ _ _).trans (ensure_length hub (group_idx + 1))
  | remove client_id group_idx => exact (access_length _ _ _).trans (Nat.max_zero _).symm
  | clear group_idx => exact (access_length _ _ _).trans (Nat.max_zero _).symm
  | calculateDefaultBits group_idx is_default_value => exact (List.length_modify _ _ _).trans (Nat.max_zero _).symm

theorem run_length_le (hub : ReplicatedState) (calls : List HeaderCall) :
    hub.filterGroups.length ≤ (calls.foldl call hub).filterGroups.length := by
  induction calls generalizing hub with
  | nil => exact Nat.le_refl _
  | cons action calls ih =>
    refine Nat.le_trans ?_ (ih (hub.call action))
    rw [call_length]
    exact Nat.le_max_left _ _

-- The groups of a header stay as they were made just when no call needs more.
theorem run_length_iff (hub : ReplicatedState) (calls : List HeaderCall) :
    (calls.foldl call hub).filterGroups.length = hub.filterGroups.length ↔
      ∀ action ∈ calls, groupsOf action ≤ hub.filterGroups.length := by
  induction calls generalizing hub with
  | nil => exact ⟨fun _ _ member => absurd member List.not_mem_nil,fun _ => rfl⟩
  | cons action calls ih =>
    have later := run_length_le (hub.call action) calls
    have step := call_length hub action
    rw [List.forall_mem_cons]
    constructor
    · intro same
      have one : (hub.call action).filterGroups.length = hub.filterGroups.length :=
        Nat.le_antisymm (same ▸ later) (step ▸ Nat.le_max_left _ _)
      refine ⟨?_,?_⟩
      · rw [step] at one
        exact one ▸ Nat.le_max_right _ _
      · intro other member
        rw [← one]
        exact (ih (hub.call action)).mp (same.trans one.symm) other member
    · rintro ⟨first,rest⟩
      have one : (hub.call action).filterGroups.length = hub.filterGroups.length := step.trans (Nat.max_eq_left first)
      refine ((ih (hub.call action)).mpr ?_).trans one
      rw [one]
      exact rest

end Groups

section RoundTrip
open FilterGroups

-- Attributes and metadata of a header, decoded one after the other by another one,
-- are read to their ends and arrive.
def RoundTrips (hub receiver : ReplicatedState) (baseline : SequenceNumber) (attributes : Bytes) : Prop :=
  ∃ received read_any final,
    (∀ rest, receiver.unmarshalFilterGroupAttributes (attributes ++ rest) = .ok ((received,read_any),rest)) ∧
    (∀ rest, received.unmarshalFilterGroupAttributeMetadata (hub.marshalFilterGroupAttributeMetadata ++ rest) =
      .ok (final,rest)) ∧
    ∀ (group_idx : Nat) (sender : ReplicatedFilterGroup), hub.filterGroups[group_idx]? = some sender →
      ∃ group, final.filterGroups[group_idx]? = some group ∧ sender.ReceivedAs baseline group

theorem attributes_length {receiver received : ReplicatedState} {read_any : Bool} {bytes rest : Bytes}
    (some_group : 0 < receiver.filterGroups.length)
    (reads : receiver.unmarshalFilterGroupAttributes bytes = .ok ((received,read_any),rest)) :
    received.filterGroups.length = receiver.filterGroups.length := by
  unfold unmarshalFilterGroupAttributes at reads
  obtain ⟨field_mask,_,_,reads⟩ := Reader.bind_eq_ok.mp reads
  split at reads
  · cases reads
    rfl
  · obtain ⟨groups,_,_,last⟩ := Reader.bind_eq_ok.mp reads
    cases last
    refine groups.2.trans ?_
    rw [ensure_length]
    have bounded := receiver.bounded
    omega

theorem round_trips_iff {hub receiver : ReplicatedState} (some_group : 0 < receiver.filterGroups.length)
    (fits : receiver.filterGroups.length ≤ hub.filterGroups.length)
    (wrote : hub.marshalFilterGroupAttributes baseline = some attributes) :
    RoundTrips hub receiver baseline attributes ↔ hub.filterGroups.length = receiver.filterGroups.length := by
  constructor
  · rintro ⟨received,read_any,final,reads,reads_metadata,arrived⟩
    have length := attributes_length some_group (reads [])
    have last : final.filterGroups.length = received.filterGroups.length := by
      obtain ⟨groups,_,_,done⟩ := Reader.bind_eq_ok.mp (reads_metadata [])
      cases done
      exact groups.2
    refine Nat.le_antisymm ?_ fits
    by_contra more
    have inside : receiver.filterGroups.length < hub.filterGroups.length := Nat.lt_of_not_le more
    obtain ⟨group,found,_⟩ := arrived _ _ (List.getElem?_eq_getElem inside)
    have bound := (List.getElem?_eq_some_iff.mp found).1
    rw [last,length] at bound
    exact Nat.lt_irrefl _ bound
  · intro same
    obtain ⟨received,read_any,unread,reads,groups,whole⟩ := filter_attributes_back some_group fits wrote
    rw [whole same.symm] at reads
    have length : received.filterGroups.length = hub.filterGroups.length := by
      rw [groups,receiveAll_length,same]
    obtain ⟨stamped,reads_metadata,final⟩ := metadata_back length
    refine ⟨received,read_any,received.withGroups stamped,reads,fun rest => Reader.bind_ok (reads_metadata rest),?_⟩
    intro group_idx sender found
    exact groups_back (final.trans (congrArg (stampAll hub.filterGroups) groups)) same.symm hub.bounded found

-- A header is read back by a fresh one of its layout just when nobody was put on the
-- whitelist of a group that the layout does not have.
theorem attributes_round_trip_iff (group_count : Nat) (calls : List HeaderCall) (baseline : SequenceNumber)
    (wrote : (history group_count calls).marshalFilterGroupAttributes baseline = some attributes) :
    RoundTrips (history group_count calls) (fresh group_count) baseline attributes ↔
      ∀ client_id group_idx, .add client_id group_idx ∈ calls →
        min (group_idx + 1) maxFiltergroupsPerReplicatedState ≤ (fresh group_count).filterGroups.length := by
  have some_group : 0 < (fresh group_count).filterGroups.length := by
    unfold fresh
    rw [ensure_length]
    exact Nat.lt_of_lt_of_le Nat.one_pos (Nat.le_max_left 1 _)
  have grown := run_length_iff (fresh group_count) calls
  have fits : (fresh group_count).filterGroups.length ≤ (history group_count calls).filterGroups.length :=
    run_length_le (fresh group_count) calls
  rw [round_trips_iff some_group fits wrote]
  refine grown.trans ⟨fun all client_id group_idx member => all _ member,?_⟩
  intro admitted action member
  cases action with
  | add client_id group_idx => exact admitted client_id group_idx member
  | remove client_id group_idx => exact Nat.zero_le _
  | clear group_idx => exact Nat.zero_le _
  | calculateDefaultBits group_idx is_default_value => exact Nat.zero_le _

-- A client on the whitelist of the second of two groups, and of a second group that
-- the layout does not have.
theorem attributes_round_trip_iff_two :
    ∃ attributes, (history 2 [.add 7 1]).marshalFilterGroupAttributes .invalid = some attributes ∧
      (RoundTrips (history 2 [.add 7 1]) (fresh 2) .invalid attributes ↔
        ∀ client_id group_idx, .add client_id group_idx ∈ [HeaderCall.add 7 1] →
          min (group_idx + 1) maxFiltergroupsPerReplicatedState ≤ (fresh 2).filterGroups.length) :=
  ⟨_,rfl,attributes_round_trip_iff 2 [.add 7 1] .invalid rfl⟩

theorem group_beyond_layout :
    ∃ attributes, (history 1 [.add 7 1]).marshalFilterGroupAttributes .invalid = some attributes ∧
      ¬RoundTrips (history 1 [.add 7 1]) (fresh 1) .invalid attributes := by
  refine ⟨_,rfl,?_⟩
  rw [round_trips_iff (by decide) (by decide) rfl]
  decide

end RoundTrip

end NwNetwork.Hub.ReplicatedState
