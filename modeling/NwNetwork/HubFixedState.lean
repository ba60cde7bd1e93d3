import NwNetwork.HubDerivedFragment

namespace NwNetwork.Hub
open WireReader MaskedSlots Serialize

-- An `ArrayVec` has at most as many elements as a u32 counts.
structure FixedSchema extends FragmentSchema where
  nGroups : Nat
  clientWhitelistSize : Nat
  capacity : clientWhitelistSize < 2^32

def marshalClientWhitelist (size : Nat) (whitelist : List ClientActorHash) : Bytes :=
  if size < whitelist.length then marshalVlqU32 0
  else marshalVlqU32 (BitVec.ofNat 32 whitelist.length) ++ whitelist.flatMap writeU64

-- No more elements are read than fit.
def unmarshalClientWhitelist (size : Nat) : Read {whitelist : List ClientActorHash // whitelist.length ≤ size} := do
  let len ← unmarshalVlqU32
  if size < len.toNat then Reader.fail (.containerOverflow len.toNat size)
  else do
    let whitelist ← Reader.times readU64 len.toNat
    pure ⟨whitelist.take size,List.length_take_le size whitelist⟩

structure FieldGroupState (size : Nat) where
  clientWhitelist : ReplicatedFieldHandler (List ClientActorHash)
  fits : ∀ whitelist ∈ clientWhitelist.value, whitelist.length ≤ size

namespace FieldGroupState
variable {size : Nat}

def default (size : Nat) : FieldGroupState size :=
  ⟨⟨some [],.validNonSequence,none,false⟩,by intro whitelist held; cases held; exact Nat.zero_le size⟩

def whitelist (group : FieldGroupState size) : List ClientActorHash := group.clientWhitelist.value.getD []

def shouldSendToClient (group : FieldGroupState size) (client_id : ClientActorHash) : Bool :=
  group.whitelist.isEmpty || group.whitelist.contains client_id

def setWhitelist (group : FieldGroupState size) (whitelist : {whitelist : List ClientActorHash // whitelist.length ≤ size}) :
    FieldGroupState size where
  clientWhitelist := group.clientWhitelist.setValue whitelist.1
  fits := by
    intro held value
    have same : held = whitelist.1 := by
      unfold ReplicatedFieldHandler.setValue at value
      split at value <;> exact (Option.mem_some_iff.mp value).symm
    rw [same]
    exact whitelist.2

def setLastModified (group : FieldGroupState size) (seq : SequenceNumber) : FieldGroupState size :=
  ⟨group.clientWhitelist.setLastModified seq,group.fits⟩

end FieldGroupState

-- A fixed state with the hand-written parts of its fragment.
structure FixedFragment (schema : FixedSchema) where
  groups : Fin schema.nGroups → FieldGroupState schema.clientWhitelistSize
  fields : FragmentFields schema.toFragmentSchema

-- The fields of the groups there are.
def registeredFields (schema : FixedSchema) : List (Fin schema.count) :=
  (List.range schema.nGroups).flatMap schema.toSchema.fieldsOf

section GroupPresentFlags

def writeFlagBytes : Nat → List Bool → Bytes
  | 0,_ => []
  | count+1,flags => writeU8 (ByteBits.maskFrom 0 0 (flags.take 8)) ++ writeFlagBytes count (flags.drop 8)

def readFlagBytes : Nat → Nat → Read (List Bool)
  | 0,_ => pure []
  | count+1,n_groups => do
    let byte ← readU8
    let flags ← readFlagBytes count (n_groups - 8)
    pure ((List.range (min 8 n_groups)).map (ByteBits.hasBit byte) ++ flags)

def flagByteCount (n_groups : Nat) : Nat := max ((n_groups + 7) / 8) 1

def writeGroupPresentFlags (group_present : List Bool) : Bytes :=
  writeFlagBytes (flagByteCount group_present.length) group_present

def readGroupPresentFlags (n_groups : Nat) : Read (List Bool) := readFlagBytes (flagByteCount n_groups) n_groups

end GroupPresentFlags

namespace FixedFragment
variable {schema : FixedSchema}

def fresh (schema : FixedSchema) : FixedFragment schema :=
  ⟨fun _ => .default schema.clientWhitelistSize,Serialize.ReplicatedState.fresh schema.toSchema⟩

def shouldSendToClient (fragment : FixedFragment schema) (client_id : ClientActorHash) (group_idx : Nat) : Bool :=
  if inside : group_idx < schema.nGroups then (fragment.groups ⟨group_idx,inside⟩).shouldSendToClient client_id else false

def context (fragment : FixedFragment schema) (mc : MarshalContext) : Serialize.MarshalContext :=
  mc.resolve fragment.shouldSendToClient

def groupMask (fragment : FixedFragment schema) (group_idx : Nat) (baseline : SequenceNumber) : BitVec 64 :=
  maskFrom 0 0 ((schema.toSchema.fieldsOf group_idx).map fun i => (schema.type i).isDirty (fragment.fields i) baseline)

-- Nothing for a group without a dirty field.
def marshalFields (fragment : FixedFragment schema) (group_idx : Nat) (baseline : SequenceNumber) : Option Bytes :=
  let field_mask := fragment.groupMask group_idx baseline
  if field_mask = 0 then none
  else some (marshalVlqU64 field_mask ++
    writeSlots (fun i => (schema.type i).marshalSince (fragment.fields i) baseline) (hasBit field_mask) 0
      (schema.toSchema.fieldsOf group_idx))

def unmarshalField (i : Fin schema.count) (fields : FragmentFields schema.toFragmentSchema) :
    Read (FragmentFields schema.toFragmentSchema) := do
  let field ← (schema.type i).unmarshal
  pure (fields.set i field)

-- A group without fields has no mask either.
def unmarshalFields (group_idx : Nat) (fields : FragmentFields schema.toFragmentSchema) :
    Read (FragmentFields schema.toFragmentSchema × Bool) :=
  if schema.toSchema.fieldsOf group_idx = [] then pure (fields,false)
  else do
    let presence ← unmarshalVlqU64
    if presence = 0 then pure (fields,false)
    else do
      let fields ← readSlots unmarshalField (hasBit presence) 0 (schema.toSchema.fieldsOf group_idx) fields
      pure (fields,true)

def groupBody (fragment : FixedFragment schema) (mc : MarshalContext) (group_idx : Nat) : Option Bytes :=
  if (fragment.context mc).shouldSend group_idx then
    fragment.marshalFields group_idx ((fragment.context mc).baselineFor group_idx)
  else none

def groupPresent (fragment : FixedFragment schema) (mc : MarshalContext) : List Bool :=
  (List.range schema.nGroups).map fun group_idx => (fragment.groupBody mc group_idx).isSome

-- The bodies are collected apart and follow the flags.
def marshalFixedContents (fragment : FixedFragment schema) (mc : MarshalContext) : Option Bytes :=
  let group_present := fragment.groupPresent mc
  if group_present.any (fun present => present) then
    some (writeGroupPresentFlags group_present ++
      writeSlots (fun group_idx => (fragment.groupBody mc group_idx).getD []) (group_present.getD · false) 0
        (List.range schema.nGroups))
  else none

def unmarshalPresent (group_idx : Nat) (state : FragmentFields schema.toFragmentSchema × Bool) :
    Read (FragmentFields schema.toFragmentSchema × Bool) := do
  let read ← unmarshalFields group_idx state.1
  pure (read.1,state.2 || read.2)

def unmarshalFixedContents (fragment : FixedFragment schema) : Read (FixedFragment schema × Bool) := do
  let group_present ← readGroupPresentFlags schema.nGroups
  let read ← readSlots unmarshalPresent (group_present.getD · false) 0 (List.range schema.nGroups) (fragment.fields,false)
  pure (⟨fragment.groups,read.1⟩,read.2)

def whitelistMask (fragment : FixedFragment schema) (baseline : SequenceNumber) : BitVec 64 :=
  maskFrom 0 0 ((List.finRange schema.nGroups).map fun group_idx =>
    (fragment.groups group_idx).clientWhitelist.isDirtySince baseline)

def marshalClientWhitelistAttributes (fragment : FixedFragment schema) (baseline : SequenceNumber) : Bytes :=
  let field_mask := fragment.whitelistMask baseline
  if field_mask = 0 then writeU8 0
  else marshalVlqU64 field_mask ++
    writeSlots (fun group_idx => marshalClientWhitelist schema.clientWhitelistSize (fragment.groups group_idx).whitelist)
      (hasBit field_mask) 0 (List.finRange schema.nGroups)

def unmarshalWhitelist (group_idx : Fin schema.nGroups) (groups : Fin schema.nGroups → FieldGroupState schema.clientWhitelistSize) :
    Read (Fin schema.nGroups → FieldGroupState schema.clientWhitelistSize) := do
  let whitelist ← unmarshalClientWhitelist schema.clientWhitelistSize
  pure (Function.update groups group_idx ((groups group_idx).setWhitelist whitelist))

def unmarshalClientWhitelistAttributes (fragment : FixedFragment schema) : Read (FixedFragment schema × Bool) := do
  let field_mask ← unmarshalVlqU64
  if field_mask = 0 then pure (fragment,false)
  else do
    let groups ← readSlots unmarshalWhitelist (hasBit field_mask) 0 (List.finRange schema.nGroups) fragment.groups
    pure (⟨groups,fragment.fields⟩,true)

def marshalWhitelistSequence (fragment : FixedFragment schema) (group_idx : Fin schema.nGroups) : Bytes :=
  (fragment.groups group_idx).clientWhitelist.lastModified.marshal

def unmarshalWhitelistSequence (group_idx : Fin schema.nGroups)
    (groups : Fin schema.nGroups → FieldGroupState schema.clientWhitelistSize) :
    Read (Fin schema.nGroups → FieldGroupState schema.clientWhitelistSize) := do
  let sequence ← SequenceNumber.unmarshal
  pure (Function.update groups group_idx ((groups group_idx).setLastModified sequence))

def marshalMetadataSequences (fragment : FixedFragment schema) : Bytes :=
  writeSlots (marshalSequence fragment.fields) (fun _ => true) 0 (registeredFields schema) ++
    writeSlots fragment.marshalWhitelistSequence (fun _ => true) 0 (List.finRange schema.nGroups)

def unmarshalMetadataSequences (fragment : FixedFragment schema) : Read (FixedFragment schema × Bool) := do
  let fields ← readSlots unmarshalSequence (fun _ => true) 0 (registeredFields schema) fragment.fields
  let groups ← readSlots unmarshalWhitelistSequence (fun _ => true) 0 (List.finRange schema.nGroups) fragment.groups
  pure (⟨groups,fields⟩,true)

def fullMarshal (fragment : FixedFragment schema) (mc : MarshalContext) : Bytes :=
  (fragment.marshalFixedContents mc).getD [] ++
    (fragment.marshalClientWhitelistAttributes mc.baselineSeq ++ fragment.marshalMetadataSequences)

def fullUnmarshal (fragment : FixedFragment schema) : Read (FixedFragment schema × Bool) := do
  let contents ← fragment.unmarshalFixedContents
  let attributes ← contents.1.unmarshalClientWhitelistAttributes
  let metadata ← attributes.1.unmarshalMetadataSequences
  pure (metadata.1,contents.2 || attributes.2 || metadata.2)

end FixedFragment
end NwNetwork.Hub
