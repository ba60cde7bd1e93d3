import NwNetwork.MaskedSlots
import NwNetwork.ReplicatedField
import NwNetwork.ReplicatedContents

namespace NwNetwork.Hub
open WireReader Serialize ReplicatedFieldHandler

abbrev ClientActorHash := BitVec 64

structure MarshalContext where
  baselineSeq : SequenceNumber
  filterTarget : Option ClientActorHash
  groupBaselines : Option (List SequenceNumber)

namespace MarshalContext

def baselineFor (baselines : List SequenceNumber) (group_idx : Nat) (fallback : SequenceNumber) : SequenceNumber :=
  baselines.getD group_idx fallback

-- The context with the answers of a hub to it.
def resolve (mc : MarshalContext) (should_send : ClientActorHash → Nat → Bool) : Serialize.MarshalContext :=
  ⟨mc.baselineSeq,mc.filterTarget.map should_send,mc.groupBaselines.map baselineFor⟩

end MarshalContext

structure FilterValue where
  value : ClientActorHash
  refCount : BitVec 64
  deriving DecidableEq, Repr

namespace FilterValue

-- No sum is more than the largest 64-bit number.
def saturatingAdd (left right : BitVec 64) : BitVec 64 :=
  if left.toNat + right.toNat < 2^64 then left + right else BitVec.allOnes 64

def marshal (entry : FilterValue) : Bytes := writeU64 entry.value ++ writeU64 entry.refCount

def unmarshal : Read FilterValue := do
  let value ← readU64
  let refCount ← readU64
  pure ⟨value,refCount⟩

theorem filter_value_back (entry : FilterValue) : ReadsBack marshal unmarshal entry := by
  intro rest
  unfold marshal unmarshal
  rw [List.append_assoc,(u64_back entry.value).bind,(u64_back entry.refCount).bind]
  rfl

end FilterValue

def maxContainerCount : Nat := 65535

-- A count that a u16 does not hold stops the program; callers see to it.
def marshalContainer (write : α → Bytes) (values : List α) : Bytes :=
  writeU16 (BitVec.ofNat 16 values.length) ++ values.flatMap write

def unmarshalContainer (read : Read α) : Read (List α) := do
  let len ← readU16
  Reader.times read len.toNat

theorem container_back {write : α → Bytes} {read : Read α} {values : List α}
    (back : ∀ value, ReadsBack write read value) (fits : values.length ≤ maxContainerCount) :
    ReadsBack (marshalContainer write) (unmarshalContainer read) values := by
  intro rest
  unfold maxContainerCount at fits
  have count : (BitVec.ofNat 16 values.length).toNat = values.length := by
    rw [BitVec.toNat_ofNat]
    omega
  unfold marshalContainer unmarshalContainer
  rw [List.append_assoc,(u16_back _).bind,count]
  exact ReadsBack.times_flatMap values (fun value _ => back value) rest

def maxFieldsPerReplicatedState : Nat := 64
def maxFiltergroupsPerReplicatedState : Nat := 10

namespace ReplicatedDefaultBits

-- A field past the last bit has none.
def ofFlags (flags : List Bool) : BitVec 64 := MaskedSlots.maskFrom 0 0 (flags.take maxFieldsPerReplicatedState)

def get (bits : BitVec 64) (index : Nat) : Bool :=
  decide (index < maxFieldsPerReplicatedState) && MaskedSlots.hasBit bits index

theorem ofFlags_get (flags : List Bool) (index : Nat) :
    get (ofFlags flags) index = (decide (index < maxFieldsPerReplicatedState) && flags.getD index false) := by
  have fits : (flags.take maxFieldsPerReplicatedState).length ≤ 64 := by
    rw [List.length_take]
    exact Nat.min_le_left _ _
  unfold get ofFlags
  by_cases small : index < maxFieldsPerReplicatedState
  · have read : (flags.take maxFieldsPerReplicatedState).getD index false = flags.getD index false := by
      rw [List.getD_eq_getElem?_getD,List.getD_eq_getElem?_getD,List.getElem?_take_of_lt small]
    rw [MaskedSlots.maskFrom_reads small fits,read]
  · rw [decide_eq_false small,Bool.false_and,Bool.false_and]

end ReplicatedDefaultBits

-- Both attributes always have a value, as nothing clears them, and the default
-- bits never have a default of their own.
structure ReplicatedFilterGroup where
  explicitClientTargets : ReplicatedFieldHandler (List FilterValue)
  defaultBits : ReplicatedFieldHandler (BitVec 64)
  targetsHeld : explicitClientTargets.value.isSome = true
  bitsHeld : defaultBits.value.isSome = true
  bitsPlain : defaultBits.defaultValue = none

namespace ReplicatedFilterGroup

def default : ReplicatedFilterGroup :=
  ⟨⟨some [],.validNonSequence,none,false⟩,⟨some 0,.validNonSequence,none,false⟩,rfl,rfl,rfl⟩

def targets (group : ReplicatedFilterGroup) : List FilterValue := group.explicitClientTargets.value.getD []

def bits (group : ReplicatedFilterGroup) : BitVec 64 := group.defaultBits.value.getD 0

theorem setValue_plain {field : ReplicatedFieldHandler (BitVec 64)} (plain : field.defaultValue = none) (value : BitVec 64) :
    field.setValue value = { field with value := some value, lastModified := .validNonSequence } := by
  unfold setValue
  rw [plain]
  rfl

def setDefaultBits (group : ReplicatedFilterGroup) (bits : BitVec 64) : ReplicatedFilterGroup :=
  { group with
    defaultBits := group.defaultBits.setValue bits
    bitsHeld := by rw [setValue_plain group.bitsPlain]; rfl
    bitsPlain := by rw [setValue_plain group.bitsPlain]; exact group.bitsPlain }

theorem setDefaultBits_bits (group : ReplicatedFilterGroup) (bits : BitVec 64) : (group.setDefaultBits bits).bits = bits := by
  unfold setDefaultBits ReplicatedFilterGroup.bits
  dsimp only
  rw [setValue_plain group.bitsPlain]
  rfl

theorem setDefaultBits_dirty (group : ReplicatedFilterGroup) (bits : BitVec 64) (baseline : SequenceNumber) :
    (group.setDefaultBits bits).defaultBits.isDirtySince baseline = baseline.less .validNonSequence := by
  unfold setDefaultBits isDirtySince
  dsimp only
  rw [setValue_plain group.bitsPlain]
  rfl

-- No target at all stands for every client.
def shouldSendToClient (group : ReplicatedFilterGroup) (client_id : ClientActorHash) : Bool :=
  group.targets.isEmpty || group.targets.any fun entry => entry.value == client_id

-- What the whitelist calls do to the targets of a group, and whether they say that
-- they have changed them.
def addTarget (client_id : ClientActorHash) (targets : List FilterValue) : Bool × List FilterValue :=
  match targets.findIdx? fun entry => entry.value == client_id with
  | some position => (true,targets.modify position fun entry => {entry with refCount := FilterValue.saturatingAdd entry.refCount 1})
  | none => (true,targets ++ [⟨client_id,1⟩])

def removeTarget (client_id : ClientActorHash) (targets : List FilterValue) : Bool × List FilterValue :=
  match targets.findIdx? fun entry => entry.value == client_id with
  | none => (false,targets)
  | some position =>
    if targets[position]?.any fun entry => decide (1 < entry.refCount) then
      (true,targets.modify position fun entry => {entry with refCount := entry.refCount - 1})
    else (true,targets.eraseIdx position)

def clearTargets (targets : List FilterValue) : Bool × List FilterValue := (!targets.isEmpty,[])

theorem access_held {field : ReplicatedFieldHandler (List FilterValue)} (held : field.value.isSome = true)
    (cb : List FilterValue → Bool × List FilterValue) :
    (field.access cb).value = some (cb (field.value.getD [])).2 ∧
      (field.access cb).lastModified = if (cb (field.value.getD [])).1 then .validNonSequence else field.lastModified := by
  obtain ⟨targets,here⟩ := Option.isSome_iff_exists.mp held
  unfold access
  rw [here]
  dsimp only [Option.getD_some]
  split
  · exact ⟨rfl,rfl⟩
  · exact ⟨rfl,rfl⟩

def accessTargets (cb : List FilterValue → Bool × List FilterValue) (group : ReplicatedFilterGroup) :
    ReplicatedFilterGroup :=
  { group with
    explicitClientTargets := group.explicitClientTargets.access cb
    targetsHeld := by rw [(access_held group.targetsHeld cb).1]; rfl }

def setLastModified (group : ReplicatedFilterGroup) (explicit_seq default_bits_seq : SequenceNumber) : ReplicatedFilterGroup :=
  { group with
    explicitClientTargets := { group.explicitClientTargets with lastModified := explicit_seq }
    defaultBits := { group.defaultBits with lastModified := default_bits_seq }
    targetsHeld := group.targetsHeld
    bitsHeld := group.bitsHeld
    bitsPlain := group.bitsPlain }

def receiveTargets (group : ReplicatedFilterGroup) (targets : List FilterValue) : ReplicatedFilterGroup :=
  { group with explicitClientTargets := received targets, targetsHeld := rfl }

def receiveBits (group : ReplicatedFilterGroup) (bits : BitVec 64) : ReplicatedFilterGroup :=
  { group with defaultBits := received bits, bitsHeld := rfl, bitsPlain := rfl }

def unmarshalTargets (field_mask : BitVec 64) (explicit_idx : Nat) (group : ReplicatedFilterGroup) : Read ReplicatedFilterGroup :=
  if MaskedSlots.hasBit field_mask explicit_idx then do
    let targets ← unmarshalContainer FilterValue.unmarshal
    pure (group.receiveTargets targets)
  else pure group

def unmarshalBits (field_mask : BitVec 64) (default_bits_idx : Nat) (group : ReplicatedFilterGroup) : Read ReplicatedFilterGroup :=
  if MaskedSlots.hasBit field_mask default_bits_idx then do
    let bits ← readU64
    pure (group.receiveBits bits)
  else pure group

def marshalTargets (field_mask : BitVec 64) (explicit_idx : Nat) (group : ReplicatedFilterGroup) : Bytes :=
  if MaskedSlots.hasBit field_mask explicit_idx then marshalContainer FilterValue.marshal group.targets else []

def marshalBits (field_mask : BitVec 64) (default_bits_idx : Nat) (group : ReplicatedFilterGroup) : Bytes :=
  if MaskedSlots.hasBit field_mask default_bits_idx then writeU64 group.bits else []

end ReplicatedFilterGroup

-- Loops over the filter groups, a group's whitelist at bit 2n of the mask and
-- its default bits at bit 2n+1.
namespace FilterGroups
open ReplicatedFilterGroup

def fieldMask (baseline : SequenceNumber) (groups : List ReplicatedFilterGroup) : BitVec 64 :=
  MaskedSlots.maskFrom 0 0 (groups.flatMap fun group =>
    [group.explicitClientTargets.isDirtySince baseline,group.defaultBits.isDirtySince baseline])

def marshalAttributes (field_mask : BitVec 64) : Nat → List ReplicatedFilterGroup → Bytes
  | _,[] => []
  | group_idx,group :: groups =>
    group.marshalTargets field_mask (group_idx*2) ++
      (group.marshalBits field_mask (group_idx*2 + 1) ++ marshalAttributes field_mask (group_idx + 1) groups)

def overflow (field_mask : BitVec 64) : Nat → List ReplicatedFilterGroup → Bool
  | _,[] => false
  | group_idx,group :: groups =>
    (MaskedSlots.hasBit field_mask (group_idx*2) && decide (maxContainerCount < group.targets.length)) ||
      overflow field_mask (group_idx + 1) groups

def unmarshalAttributes (field_mask : BitVec 64) :
    Nat → (groups : List ReplicatedFilterGroup) → Read {received : List ReplicatedFilterGroup // received.length = groups.length}
  | _,[] => pure ⟨[],rfl⟩
  | group_idx,group :: groups => do
    let group ← group.unmarshalTargets field_mask (group_idx*2)
    let group ← group.unmarshalBits field_mask (group_idx*2 + 1)
    let others ← unmarshalAttributes field_mask (group_idx + 1) groups
    pure ⟨group :: others.1,congrArg Nat.succ others.2⟩

def marshalMetadata (groups : List ReplicatedFilterGroup) : Bytes :=
  groups.flatMap fun group => group.explicitClientTargets.lastModified.marshal ++ group.defaultBits.lastModified.marshal

def unmarshalMetadata :
    (groups : List ReplicatedFilterGroup) → Read {received : List ReplicatedFilterGroup // received.length = groups.length}
  | [] => pure ⟨[],rfl⟩
  | group :: groups => do
    let explicit_seq ← SequenceNumber.unmarshal
    let default_bits_seq ← SequenceNumber.unmarshal
    let others ← unmarshalMetadata groups
    pure ⟨group.setLastModified explicit_seq default_bits_seq :: others.1,congrArg Nat.succ others.2⟩

end FilterGroups

-- The header a derived state embeds.
structure ReplicatedState where
  filterGroups : List ReplicatedFilterGroup
  bounded : filterGroups.length ≤ maxFiltergroupsPerReplicatedState

namespace ReplicatedState

def new : ReplicatedState := ⟨[.default],by decide⟩

def ensureFilterGroups (hub : ReplicatedState) (group_count : Nat) : ReplicatedState where
  filterGroups := hub.filterGroups ++
    List.replicate (min group_count maxFiltergroupsPerReplicatedState - hub.filterGroups.length) .default
  bounded := by
    have bounded := hub.bounded
    rw [List.length_append,List.length_replicate]
    omega

def shouldSendToClient (hub : ReplicatedState) (client_id : ClientActorHash) (group_idx : Nat) : Bool :=
  if maxFiltergroupsPerReplicatedState ≤ group_idx then false
  else match hub.filterGroups[group_idx]? with
    | some group => group.shouldSendToClient client_id
    | none => true

def accessTargets (hub : ReplicatedState) (group_idx : Nat) (cb : List FilterValue → Bool × List FilterValue) :
    ReplicatedState where
  filterGroups := hub.filterGroups.modify group_idx (ReplicatedFilterGroup.accessTargets cb)
  bounded := by rw [List.length_modify]; exact hub.bounded

-- A group that the header may have but does not is made first.
def addClientToReplicationWhitelist (hub : ReplicatedState) (client_id : ClientActorHash) (group_idx : Nat) :
    ReplicatedState :=
  (hub.ensureFilterGroups (group_idx + 1)).accessTargets group_idx (ReplicatedFilterGroup.addTarget client_id)

def removeClientFromReplicationWhitelist (hub : ReplicatedState) (client_id : ClientActorHash) (group_idx : Nat) :
    ReplicatedState :=
  hub.accessTargets group_idx (ReplicatedFilterGroup.removeTarget client_id)

def clearReplicationWhitelist (hub : ReplicatedState) (group_idx : Nat) : ReplicatedState :=
  hub.accessTargets group_idx ReplicatedFilterGroup.clearTargets

def calculateDefaultBits (hub : ReplicatedState) (group_idx : Nat) (is_default_value : List Bool) : ReplicatedState where
  filterGroups := hub.filterGroups.modify group_idx
    (ReplicatedFilterGroup.setDefaultBits · (ReplicatedDefaultBits.ofFlags is_default_value))
  bounded := by rw [List.length_modify]; exact hub.bounded

-- Nothing when the program stops over the count of a whitelist.
def marshalFilterGroupAttributes (hub : ReplicatedState) (baseline : SequenceNumber) : Option Bytes :=
  let field_mask := FilterGroups.fieldMask baseline hub.filterGroups
  if field_mask = 0 then some (writeU8 0)
  else if FilterGroups.overflow field_mask 0 hub.filterGroups then none
  else some (marshalVlqU64 field_mask ++ FilterGroups.marshalAttributes field_mask 0 hub.filterGroups)

def withGroups (hub : ReplicatedState)
    (groups : {received : List ReplicatedFilterGroup // received.length = hub.filterGroups.length}) : ReplicatedState :=
  ⟨groups.1,by rw [groups.2]; exact hub.bounded⟩

-- A mask of zero leaves the header as it is.
def unmarshalFilterGroupAttributes (hub : ReplicatedState) : Read (ReplicatedState × Bool) := do
  let field_mask ← unmarshalVlqU64
  if field_mask = 0 then pure (hub,false)
  else do
    let hub := hub.ensureFilterGroups (max hub.filterGroups.length 1)
    let groups ← FilterGroups.unmarshalAttributes field_mask 0 hub.filterGroups
    pure (hub.withGroups groups,true)

def marshalFilterGroupAttributeMetadata (hub : ReplicatedState) : Bytes := FilterGroups.marshalMetadata hub.filterGroups

def unmarshalFilterGroupAttributeMetadata (hub : ReplicatedState) : Read ReplicatedState := do
  let groups ← FilterGroups.unmarshalMetadata hub.filterGroups
  pure (hub.withGroups groups)

end ReplicatedState
end NwNetwork.Hub
