import NwNetwork.ByteBits
import NwNetwork.HubSequenceNumber
import Mathlib.Data.List.MinMax

namespace NwNetwork.Serialize
open WireReader ByteBits Hub

-- What the generated code asks of a field, whichever handler is behind it. A
-- merge gives the merged handler, what it leaves of the new one, and whether it
-- has seen new data.
structure FieldType where
  Handler : Type
  initial : Handler
  isDirty : Handler → SequenceNumber → Bool
  marshal : Handler → Bytes
  unmarshal : Read Handler
  mergeAndUpdateSequence : Handler → Handler → Handler → SequenceNumber → Bool →
    Handler × Handler × Bool
  lastModified : Handler → SequenceNumber
  hasNewNetworkData : Handler → Bool

-- The bytes of a field are read as a handler, with nothing left over.
def FieldType.ReadsAs (type : FieldType) (field decoded : type.Handler) : Prop :=
  ∀ rest, type.unmarshal (type.marshal field ++ rest) = .ok (decoded,rest)

structure Schema where
  count : Nat
  type : Fin count → FieldType
  group : Fin count → Nat

namespace Schema
variable (schema : Schema)

def fieldsOf (group_idx : Nat) : List (Fin schema.count) :=
  (List.finRange schema.count).filter fun i => schema.group i == group_idx

def maxDescriptor : Nat := ((List.finRange schema.count).map schema.group).foldr max 0

-- A chunk has eight groups, the last one those that are left.
def groupsInChunk (chunk_idx : Nat) : List Nat :=
  List.range' (chunk_idx*8) (min 8 (schema.maxDescriptor + 1 - chunk_idx*8))

def chunks : List Nat := List.range (schema.maxDescriptor / 8 + 1)

theorem mem_fieldsOf {schema : Schema} {i : Fin schema.count} : i ∈ schema.fieldsOf group_idx ↔ schema.group i = group_idx := by
  simp [fieldsOf]

theorem group_le (i : Fin schema.count) : schema.group i ≤ schema.maxDescriptor := by
  exact List.le_max_of_le' 0 (List.mem_map_of_mem (List.mem_finRange i)) (Nat.le_refl _)

theorem mem_groupsInChunk {schema : Schema} :
    group_idx ∈ schema.groupsInChunk chunk_idx ↔ group_idx / 8 = chunk_idx ∧ group_idx ≤ schema.maxDescriptor := by
  unfold groupsInChunk
  rw [List.mem_range'_1]
  omega

theorem mem_chunks {schema : Schema} (i : Fin schema.count) : schema.group i / 8 ∈ schema.chunks := by
  have below := schema.group_le i
  unfold chunks
  rw [List.mem_range]
  omega

end Schema

abbrev ReplicatedState (schema : Schema) := (i : Fin schema.count) → (schema.type i).Handler

-- The groups a filter target is sent and the baselines of single groups are
-- answers of the hub, taken as functions.
structure MarshalContext where
  baselineSeq : SequenceNumber
  filterTarget : Option (Nat → Bool)
  groupBaselines : Option (Nat → SequenceNumber → SequenceNumber)

namespace MarshalContext

def plain (baseline : SequenceNumber) : MarshalContext := ⟨baseline,none,none⟩

def baselineFor (mc : MarshalContext) (group_idx : Nat) : SequenceNumber :=
  match mc.groupBaselines with
  | some baselines => baselines group_idx mc.baselineSeq
  | none => mc.baselineSeq

def shouldSend (mc : MarshalContext) (group_idx : Nat) : Bool :=
  match mc.filterTarget with
  | some shouldSend => shouldSend group_idx
  | none => true

end MarshalContext

-- Reads up to the first mask without a continuation bit.
def skipMaskChain : Read Unit
  | [] => .error (.bufferUnderrun 1 0)
  | mask :: rest => if mask &&& 0x80 == 0 then .ok ((),rest) else skipMaskChain rest

structure ReplicatedMergeOutcome where
  lastModified : SequenceNumber
  hasNewNetworkData : Bool
  detectedNewDataInLastMerge : Bool

namespace ReplicatedState
variable {schema : Schema}

def fresh (schema : Schema) : ReplicatedState schema := fun i => (schema.type i).initial

def fieldDirty (mc : MarshalContext) (state : ReplicatedState schema) (i : Fin schema.count) : Bool :=
  (schema.type i).isDirty (state i) (mc.baselineFor (schema.group i))

-- Never set for a group without fields.
def descriptorDirty (mc : MarshalContext) (state : ReplicatedState schema) (group_idx : Nat) : Bool :=
  mc.shouldSend group_idx && (schema.fieldsOf group_idx).any (state.fieldDirty mc)

def fieldSent (mc : MarshalContext) (state : ReplicatedState schema) (i : Fin schema.count) : Bool :=
  state.descriptorDirty mc (schema.group i) && state.fieldDirty mc i

def payloads (state : ReplicatedState schema) (dirty : Fin schema.count → Bool) (fields : List (Fin schema.count)) : Bytes :=
  (fields.filter dirty).flatMap fun i => (schema.type i).marshal (state i)

-- Seven fields a mask, bit 7 for a dirty field in a later one. The first mask
-- is always written.
def fieldMask (dirty : Fin schema.count → Bool) (fields : List (Fin schema.count)) : UInt8 :=
  let mask := maskFrom 0 0 ((fields.take 7).map dirty)
  if (fields.drop 7).any dirty then mask ||| 0x80 else mask

def marshalFieldChunks (state : ReplicatedState schema) (dirty : Fin schema.count → Bool) :
    Nat → Bool → List (Fin schema.count) → Bytes
  | 0,_,_ => []
  | count+1,is_first,fields =>
    let field_mask := fieldMask dirty fields
    (if is_first || field_mask != 0 then writeU8 field_mask ++ state.payloads dirty (fields.take 7) else []) ++
      marshalFieldChunks state dirty count false (fields.drop 7)

def marshalGroup (mc : MarshalContext) (state : ReplicatedState schema) (group_idx : Nat) : Bytes :=
  let fields := schema.fieldsOf group_idx
  state.marshalFieldChunks (state.fieldDirty mc) ((fields.length + 6) / 7) true fields

def marshalChunk (mc : MarshalContext) (state : ReplicatedState schema) (chunk_idx : Nat) : Bytes :=
  let groups := schema.groupsInChunk chunk_idx
  writeU8 (maskFrom 0 0 (groups.map (state.descriptorDirty mc))) ++
    (groups.filter (state.descriptorDirty mc)).flatMap (state.marshalGroup mc)

-- Nothing at all when no group is dirty.
def marshalFields (mc : MarshalContext) (state : ReplicatedState schema) : Option Bytes :=
  if (List.range (schema.maxDescriptor + 1)).any (state.descriptorDirty mc) then
    some (schema.chunks.flatMap (state.marshalChunk mc))
  else none

def set (state : ReplicatedState schema) (i : Fin schema.count) (field : (schema.type i).Handler) : ReplicatedState schema :=
  Function.update state i field

theorem set_same (state : ReplicatedState schema) (i : Fin schema.count) (field : (schema.type i).Handler) :
    state.set i field i = field := by
  unfold set
  exact Function.update_self _ _ _

theorem set_other {i j : Fin schema.count} (state : ReplicatedState schema) (other : j ≠ i) (field : (schema.type i).Handler) :
    state.set i field j = state j := by
  unfold set
  exact Function.update_of_ne other _ _

def unmarshalField (state : ReplicatedState schema) (field_mask : UInt8) (field_index : Nat) (i : Fin schema.count) :
    Read (ReplicatedState schema) :=
  if hasBit field_mask (field_index % 7) then do
    let field ← (schema.type i).unmarshal
    pure (state.set i field)
  else pure state

def unmarshalFieldMask (field_mask : UInt8) (field_index : Nat) : Read UInt8 :=
  if field_index % 7 = 0 then readU8 else pure field_mask

-- The state and whether a mask without a continuation bit has been reached.
def unmarshalGroupFields (field_count : Nat) :
    List (Fin schema.count) → Nat → UInt8 → Bool → ReplicatedState schema → Read (ReplicatedState schema × Bool)
  | [],_,_,descriptor_done,state => pure (state,descriptor_done)
  | i :: fields,field_index,field_mask,descriptor_done,state =>
    if descriptor_done then unmarshalGroupFields field_count fields (field_index+1) field_mask true state
    else do
      let field_mask ← unmarshalFieldMask field_mask field_index
      let state ← state.unmarshalField field_mask field_index i
      let descriptor_done := (field_index % 7 == 6 || field_index + 1 == field_count) && field_mask &&& 0x80 == 0
      unmarshalGroupFields field_count fields (field_index+1) field_mask descriptor_done state

def unmarshalGroup (group_idx : Nat) (state : ReplicatedState schema) : Read (ReplicatedState schema) := do
  let field_count := (schema.fieldsOf group_idx).length
  let (state,descriptor_done) ← unmarshalGroupFields field_count (schema.fieldsOf group_idx) 0 0 false state
  if field_count != 0 && field_count % 7 == 0 && !descriptor_done then do
    skipMaskChain
    pure state
  else pure state

-- The chain of a group without fields is skipped.
def unmarshalDescribed (descriptor_mask : UInt8) (group_idx : Nat) (state : ReplicatedState schema) :
    Read (ReplicatedState schema) :=
  if hasBit descriptor_mask (group_idx % 8) then
    if schema.fieldsOf group_idx = [] then do
      skipMaskChain
      pure state
    else unmarshalGroup group_idx state
  else pure state

def unmarshalGroups (descriptor_mask : UInt8) : List Nat → ReplicatedState schema → Read (ReplicatedState schema)
  | [],state => pure state
  | group_idx :: groups,state => do
    let state ← unmarshalDescribed descriptor_mask group_idx state
    unmarshalGroups descriptor_mask groups state

def unmarshalChunks : List Nat → ReplicatedState schema → Read (ReplicatedState schema)
  | [],state => pure state
  | chunk_idx :: chunks,state => do
    let descriptor_mask ← readU8
    let state ← unmarshalGroups descriptor_mask (schema.groupsInChunk chunk_idx) state
    unmarshalChunks chunks state

def unmarshalFields (state : ReplicatedState schema) : Read (ReplicatedState schema) :=
  unmarshalChunks schema.chunks state

def fieldOrder (schema : Schema) : List (Fin schema.count) :=
  (List.range (schema.maxDescriptor + 1)).flatMap schema.fieldsOf

-- The merged state is a new one, so each field is merged into its initial handler.
def mergeFields (state new_state : ReplicatedState schema) (seq : SequenceNumber)
    (inherit_previous_network_data_status : Bool) :
    ReplicatedState schema × ReplicatedState schema × ReplicatedMergeOutcome :=
  let merge := fun i => (schema.type i).mergeAndUpdateSequence (schema.type i).initial (state i) (new_state i) seq
    inherit_previous_network_data_status
  let outcome := (fieldOrder schema).foldl (fun outcome i =>
    { lastModified := outcome.lastModified.max ((schema.type i).lastModified (merge i).1)
      hasNewNetworkData := outcome.hasNewNetworkData || (schema.type i).hasNewNetworkData (merge i).1
      detectedNewDataInLastMerge := outcome.detectedNewDataInLastMerge || (merge i).2.2 }) ⟨.invalid,false,false⟩
  (fun i => (merge i).1,fun i => (merge i).2.1,outcome)

end ReplicatedState
end NwNetwork.Serialize
