import NwNetwork.HubDerivedFragment

namespace NwNetwork.Hub
open WireReader MaskedSlots Serialize ReplicatedFieldHandler

namespace ReplicatedFilterGroup

-- A group that has received the attributes of another that a mask says were sent.
def receive (field_mask : BitVec 64) (group_idx : Nat) (sender receiver : ReplicatedFilterGroup) : ReplicatedFilterGroup :=
  let receiver := if hasBit field_mask (group_idx*2) then receiver.receiveTargets sender.targets else receiver
  if hasBit field_mask (group_idx*2 + 1) then receiver.receiveBits sender.bits else receiver

theorem targets_back (sender receiver : ReplicatedFilterGroup)
    (fits : hasBit field_mask explicit_idx = true → sender.targets.length ≤ maxContainerCount) (rest : Bytes) :
    receiver.unmarshalTargets field_mask explicit_idx (sender.marshalTargets field_mask explicit_idx ++ rest) =
      .ok (if hasBit field_mask explicit_idx then receiver.receiveTargets sender.targets else receiver,rest) := by
  unfold unmarshalTargets marshalTargets
  split
  · rename_i sent
    exact (container_back FilterValue.filter_value_back (fits sent)).bind _ rest
  · rfl

theorem bits_back (field_mask : BitVec 64) (default_bits_idx : Nat) (sender receiver : ReplicatedFilterGroup) (rest : Bytes) :
    receiver.unmarshalBits field_mask default_bits_idx (sender.marshalBits field_mask default_bits_idx ++ rest) =
      .ok (if hasBit field_mask default_bits_idx then receiver.receiveBits sender.bits else receiver,rest) := by
  unfold unmarshalBits marshalBits
  split
  · exact (u64_back sender.bits).bind _ rest
  · rfl

theorem receive_none (group_idx : Nat) (sender receiver : ReplicatedFilterGroup) :
    receive 0 group_idx sender receiver = receiver := by
  unfold receive hasBit
  simp

theorem receive_bits (field_mask : BitVec 64) (group_idx : Nat) (sender receiver : ReplicatedFilterGroup) :
    (receive field_mask group_idx sender receiver).bits =
      if hasBit field_mask (group_idx*2 + 1) then sender.bits else receiver.bits := by
  unfold receive
  dsimp only
  split
  · rfl
  · split <;> rfl

theorem receive_targets (field_mask : BitVec 64) (group_idx : Nat) (sender receiver : ReplicatedFilterGroup) :
    (receive field_mask group_idx sender receiver).targets =
      if hasBit field_mask (group_idx*2) then sender.targets else receiver.targets := by
  unfold receive
  dsimp only
  cases hasBit field_mask (group_idx*2) with
  | true => split <;> rfl
  | false => split <;> rfl

end ReplicatedFilterGroup

namespace FilterGroups
open ReplicatedFilterGroup

-- The groups of a receiver with those attributes, the same for each group.
def receiveAll (field_mask : BitVec 64) : Nat → List ReplicatedFilterGroup → List ReplicatedFilterGroup → List ReplicatedFilterGroup
  | group_idx,sender :: senders,receiver :: receivers =>
    receive field_mask group_idx sender receiver :: receiveAll field_mask (group_idx + 1) senders receivers
  | _,_,receivers => receivers

section Groups
variable {field_mask : BitVec 64} {senders receivers : List ReplicatedFilterGroup}

theorem receiveAll_nil (group_idx : Nat) (senders : List ReplicatedFilterGroup) :
    receiveAll field_mask group_idx senders [] = [] := by
  cases senders <;> rfl

theorem receiveAll_at {j : Nat} {sender receiver : ReplicatedFilterGroup} (field_mask : BitVec 64) (group_idx : Nat)
    (sends : senders[j]? = some sender) (receives : receivers[j]? = some receiver) :
    (receiveAll field_mask group_idx senders receivers)[j]? = some (receive field_mask (group_idx + j) sender receiver) := by
  induction senders generalizing receivers group_idx j with
  | nil => cases sends
  | cons s senders ih =>
    cases receivers with
    | nil => cases receives
    | cons r receivers =>
      cases j with
      | zero =>
        cases sends
        cases receives
        rfl
      | succ j =>
        have later : (receiveAll field_mask (group_idx + 1) senders receivers)[j]? =
            some (receive field_mask (group_idx + 1 + j) sender receiver) := ih (group_idx + 1) sends receives
        rw [Nat.add_assoc,Nat.add_comm 1 j] at later
        exact later

theorem receiveAll_length (group_idx : Nat) (senders receivers : List ReplicatedFilterGroup) :
    (receiveAll field_mask group_idx senders receivers).length = receivers.length := by
  induction senders generalizing receivers group_idx with
  | nil => rfl
  | cons s senders ih =>
    cases receivers with
    | nil => rfl
    | cons r receivers =>
      unfold receiveAll
      rw [List.length_cons,ih,List.length_cons]

theorem receiveAll_none (group_idx : Nat) (senders receivers : List ReplicatedFilterGroup) :
    receiveAll 0 group_idx senders receivers = receivers := by
  induction senders generalizing receivers group_idx with
  | nil => rfl
  | cons s senders ih =>
    cases receivers with
    | nil => rfl
    | cons r receivers =>
      unfold receiveAll
      rw [receive_none,ih]

-- The attributes of groups that the receiver does not have stay unread.
theorem attributes_back (group_idx : Nat) (fits : receivers.length ≤ senders.length)
    (countable : overflow field_mask group_idx senders = false) :
    ∃ received, (∀ rest, unmarshalAttributes field_mask group_idx receivers
        (marshalAttributes field_mask group_idx senders ++ rest) =
        .ok (received,marshalAttributes field_mask (group_idx + receivers.length) (senders.drop receivers.length) ++ rest)) ∧
      received.1 = receiveAll field_mask group_idx senders receivers := by
  induction receivers generalizing senders group_idx with
  | nil => exact ⟨⟨[],rfl⟩,fun _ => rfl,(receiveAll_nil group_idx senders).symm⟩
  | cons r receivers ih =>
    cases senders with
    | nil => cases fits
    | cons s senders =>
      unfold overflow at countable
      rw [Bool.or_eq_false_iff] at countable
      have count : hasBit field_mask (group_idx*2) = true → s.targets.length ≤ maxContainerCount := by
        intro sent
        have below := countable.1
        rw [sent,Bool.true_and,decide_eq_false_iff_not] at below
        exact Nat.le_of_not_lt below
      obtain ⟨others,reads,same⟩ := ih (group_idx + 1) (Nat.le_of_succ_le_succ fits) countable.2
      refine ⟨⟨receive field_mask group_idx s r :: others.1,congrArg Nat.succ others.2⟩,?_,?_⟩
      · intro rest
        have targets := targets_back s r count
          (s.marshalBits field_mask (group_idx*2 + 1) ++ (marshalAttributes field_mask (group_idx + 1) senders ++ rest))
        have bits := bits_back field_mask (group_idx*2 + 1) s
          (if hasBit field_mask (group_idx*2) then r.receiveTargets s.targets else r)
          (marshalAttributes field_mask (group_idx + 1) senders ++ rest)
        have place : group_idx + (r :: receivers).length = group_idx + 1 + receivers.length := by
          rw [List.length_cons,Nat.add_comm receivers.length 1,Nat.add_assoc]
        have left : marshalAttributes field_mask (group_idx + (r :: receivers).length)
            ((s :: senders).drop (r :: receivers).length) =
            marshalAttributes field_mask (group_idx + 1 + receivers.length) (senders.drop receivers.length) := by
          rw [place]
          rfl
        rw [left,marshalAttributes,unmarshalAttributes,List.append_assoc,List.append_assoc,Reader.bind_ok targets,
          Reader.bind_ok bits,Reader.bind_ok (reads rest)]
        rfl
      · exact congrArg (receive field_mask group_idx s r :: ·) same

theorem flags_even (baseline : SequenceNumber) (groups : List ReplicatedFilterGroup) (j : Nat) :
    (groups.flatMap fun group => [group.explicitClientTargets.isDirtySince baseline,
      group.defaultBits.isDirtySince baseline])[j*2]? = (groups[j]?).map fun group =>
        group.explicitClientTargets.isDirtySince baseline := by
  induction groups generalizing j with
  | nil => rfl
  | cons group groups ih =>
    cases j with
    | zero => rfl
    | succ j =>
      rw [Nat.succ_mul]
      exact ih j

theorem flags_odd (baseline : SequenceNumber) (groups : List ReplicatedFilterGroup) (j : Nat) :
    (groups.flatMap fun group => [group.explicitClientTargets.isDirtySince baseline,
      group.defaultBits.isDirtySince baseline])[j*2 + 1]? = (groups[j]?).map fun group =>
        group.defaultBits.isDirtySince baseline := by
  induction groups generalizing j with
  | nil => rfl
  | cons group groups ih =>
    cases j with
    | zero => rfl
    | succ j =>
      rw [Nat.succ_mul]
      exact ih j

end Groups

section Mask
variable {groups : List ReplicatedFilterGroup} {group : ReplicatedFilterGroup}

theorem flags_length (baseline : SequenceNumber) (groups : List ReplicatedFilterGroup) :
    (groups.flatMap fun group => [group.explicitClientTargets.isDirtySince baseline,
      group.defaultBits.isDirtySince baseline]).length = groups.length*2 := by
  induction groups with
  | nil => rfl
  | cons group groups ih =>
    rw [List.flatMap_cons,List.length_append,ih]
    simp only [List.length_cons,List.length_nil]
    omega

theorem fieldMask_targets (baseline : SequenceNumber) (bounded : groups.length ≤ maxFiltergroupsPerReplicatedState) (found : groups[j]? = some group) :
    hasBit (fieldMask baseline groups) (j*2) = group.explicitClientTargets.isDirtySince baseline := by
  have inside := (List.getElem?_eq_some_iff.mp found).1
  unfold maxFiltergroupsPerReplicatedState at bounded
  unfold fieldMask
  rw [maskFrom_reads (by omega) (by rw [flags_length]; omega),List.getD_eq_getElem?_getD,flags_even,found]
  rfl

theorem fieldMask_bits (baseline : SequenceNumber) (bounded : groups.length ≤ maxFiltergroupsPerReplicatedState) (found : groups[j]? = some group) :
    hasBit (fieldMask baseline groups) (j*2 + 1) = group.defaultBits.isDirtySince baseline := by
  have inside := (List.getElem?_eq_some_iff.mp found).1
  unfold maxFiltergroupsPerReplicatedState at bounded
  unfold fieldMask
  rw [maskFrom_reads (by omega) (by rw [flags_length]; omega),List.getD_eq_getElem?_getD,flags_odd,found]
  rfl

end Mask
end FilterGroups

namespace ReplicatedState
open FilterGroups

theorem vlq_zero_back (rest : Bytes) : unmarshalVlqU64 (writeU8 0 ++ rest) = .ok (0,rest) := by
  have form : marshalVlqU64 0 = writeU8 0 := by decide
  rw [← form]
  exact vlqU64_back 0 rest

theorem ensureFilterGroups_self {hub : ReplicatedState} {group_count : Nat}
    (enough : min group_count maxFiltergroupsPerReplicatedState ≤ hub.filterGroups.length) :
    hub.ensureFilterGroups group_count = hub := by
  have none : min group_count maxFiltergroupsPerReplicatedState - hub.filterGroups.length = 0 := by omega
  unfold ensureFilterGroups
  simp only [none,List.replicate_zero,List.append_nil]

-- What a header with no more groups reads of the attributes.
theorem filter_attributes_back {hub receiver : ReplicatedState} (some_group : 0 < receiver.filterGroups.length)
    (fits : receiver.filterGroups.length ≤ hub.filterGroups.length)
    (wrote : hub.marshalFilterGroupAttributes baseline = some bytes) :
    ∃ received read_any unread, (∀ rest, receiver.unmarshalFilterGroupAttributes (bytes ++ rest) =
        .ok ((received,read_any),unread ++ rest)) ∧
      received.filterGroups = receiveAll (fieldMask baseline hub.filterGroups) 0 hub.filterGroups receiver.filterGroups ∧
      (receiver.filterGroups.length = hub.filterGroups.length → unread = []) := by
  unfold marshalFilterGroupAttributes at wrote
  dsimp only at wrote
  split at wrote
  · rename_i clean
    cases wrote
    refine ⟨receiver,false,[],?_,by rw [clean,receiveAll_none],fun _ => rfl⟩
    intro rest
    unfold unmarshalFilterGroupAttributes
    rw [Reader.bind_ok (vlq_zero_back rest)]
    rfl
  · rename_i some_dirty
    split at wrote
    · cases wrote
    · rename_i countable
      cases wrote
      obtain ⟨groups,reads,same⟩ := attributes_back 0 fits (Bool.eq_false_iff.mpr countable)
      have ensured : receiver.ensureFilterGroups (max receiver.filterGroups.length 1) = receiver := by
        apply ensureFilterGroups_self
        omega
      refine ⟨receiver.withGroups groups,true,marshalAttributes (fieldMask baseline hub.filterGroups)
        (0 + receiver.filterGroups.length) (hub.filterGroups.drop receiver.filterGroups.length),?_,same,?_⟩
      · intro rest
        unfold unmarshalFilterGroupAttributes
        rw [List.append_assoc,(vlqU64_back _).bind,if_neg some_dirty,ensured]
        exact Reader.bind_ok (reads rest)
      · intro whole
        rw [whole,List.drop_length]
        rfl

end ReplicatedState
end NwNetwork.Hub
