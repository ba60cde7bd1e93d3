import NwNetwork.HubReplicatedState
import NwNetwork.ReplicatedHandler
import Mathlib.Data.List.Nodup

namespace NwNetwork.Hub
open WireReader MaskedSlots Serialize

def nGroups (schema : FragmentSchema) : Nat := schema.toSchema.maxDescriptor + 1

-- The groups that have fields, in the order the code for them is generated.
def groupsWithFields (schema : FragmentSchema) : List Nat :=
  (List.range (nGroups schema)).filter fun group_idx => !(schema.toSchema.fieldsOf group_idx).isEmpty

-- The position of a field in its group.
def fieldIndex (schema : FragmentSchema) (i : Fin schema.count) : Nat :=
  (schema.toSchema.fieldsOf (schema.group i)).idxOf i

section Fields
variable {schema : FragmentSchema}

def applyDefaultBits (hub : ReplicatedState) (fields : FragmentFields schema) (group_idx : Nat) : FragmentFields schema :=
  match hub.filterGroups[group_idx]? with
  | some group =>
    applySlots (changeSlot fun i => (schema.type i).setCurrentValueAsDefault) (ReplicatedDefaultBits.get group.bits) 0
      (schema.toSchema.fieldsOf group_idx) fields
  | none => fields

def unmarshalSequence (i : Fin schema.count) (fields : FragmentFields schema) : Read (FragmentFields schema) := do
  let sequence ← SequenceNumber.unmarshal
  pure (fields.set i ((schema.type i).setLastModified (fields i) sequence))

def marshalSequence (fields : FragmentFields schema) (i : Fin schema.count) : Bytes :=
  ((schema.type i).lastModified (fields i)).marshal

end Fields

structure DerivedFragment (schema : FragmentSchema) where
  hub : ReplicatedState
  fields : FragmentFields schema

namespace DerivedFragment
variable {schema : FragmentSchema}

def fresh (schema : FragmentSchema) : DerivedFragment schema := ⟨.new,Serialize.ReplicatedState.fresh schema.toSchema⟩

def shouldSendToClientGroup (fragment : DerivedFragment schema) (target : ClientActorHash) (group_idx : Nat) : Bool :=
  decide (group_idx < nGroups schema) && fragment.hub.shouldSendToClient target group_idx

def context (fragment : DerivedFragment schema) (mc : MarshalContext) : Serialize.MarshalContext :=
  mc.resolve fragment.shouldSendToClientGroup

def marshalContentsWith (fragment : DerivedFragment schema) (mc : MarshalContext) : Option Bytes :=
  fragment.fields.marshalFields (fragment.context mc)

def unmarshalContents (fragment : DerivedFragment schema) : Read (DerivedFragment schema × Bool) := do
  let fields ← fragment.fields.unmarshalFields
  pure (⟨fragment.hub,fields⟩,true)

def defaultFlags (fragment : DerivedFragment schema) (group_idx : Nat) : List Bool :=
  (schema.toSchema.fieldsOf group_idx).map fun i => (schema.type i).isDefaultValue (fragment.fields i)

-- The header as attributes and metadata are written of it: a copy, with the
-- default bits of the moment.
def calculateDefaultBits (fragment : DerivedFragment schema) : ReplicatedState :=
  (groupsWithFields schema).foldl (fun hub group_idx => hub.calculateDefaultBits group_idx (fragment.defaultFlags group_idx))
    (fragment.hub.ensureFilterGroups (nGroups schema))

def marshalAttributes (fragment : DerivedFragment schema) (mc : MarshalContext) : Option Bytes :=
  fragment.calculateDefaultBits.marshalFilterGroupAttributes mc.baselineSeq

def unmarshalAttributes (fragment : DerivedFragment schema) : Read (DerivedFragment schema × Bool) := do
  let read ← (fragment.hub.ensureFilterGroups (nGroups schema)).unmarshalFilterGroupAttributes
  pure (⟨read.1,(groupsWithFields schema).foldl (applyDefaultBits read.1) fragment.fields⟩,read.2)

def marshalFieldMetadata (fragment : DerivedFragment schema) : Bytes :=
  writeSlots (marshalSequence fragment.fields) (fun _ => true) 0 (Serialize.ReplicatedState.fieldOrder schema.toSchema) ++
    fragment.calculateDefaultBits.marshalFilterGroupAttributeMetadata

def unmarshalFieldMetadata (fragment : DerivedFragment schema) : Read (DerivedFragment schema × Bool) := do
  let fields ← readSlots unmarshalSequence (fun _ => true) 0 (Serialize.ReplicatedState.fieldOrder schema.toSchema)
    fragment.fields
  let hub ← (fragment.hub.ensureFilterGroups (nGroups schema)).unmarshalFilterGroupAttributeMetadata
  pure (⟨hub,fields⟩,true)

-- Nothing when the attributes stop the program.
def fullMarshal (fragment : DerivedFragment schema) (mc : MarshalContext) : Option Bytes := do
  let attributes ← fragment.marshalAttributes mc
  some ((fragment.marshalContentsWith mc).getD [] ++ (attributes ++ fragment.marshalFieldMetadata))

def fullUnmarshal (fragment : DerivedFragment schema) : Read (DerivedFragment schema × Bool) := do
  let contents ← fragment.unmarshalContents
  let attributes ← contents.1.unmarshalAttributes
  let metadata ← attributes.1.unmarshalFieldMetadata
  pure (metadata.1,contents.2 || attributes.2 || metadata.2)

end DerivedFragment

section Groups
variable {schema : FragmentSchema} {fields : FragmentFields schema}

theorem mem_groupsWithFields (i : Fin schema.count) : schema.group i ∈ groupsWithFields schema := by
  have below : schema.group i ≤ schema.toSchema.maxDescriptor := schema.toSchema.group_le i
  have member : i ∈ schema.toSchema.fieldsOf (schema.group i) := Schema.mem_fieldsOf.mpr rfl
  unfold groupsWithFields nGroups
  rw [List.mem_filter,List.mem_range]
  refine ⟨Nat.lt_succ_of_le below,?_⟩
  rw [Bool.not_eq_true',List.isEmpty_eq_false_iff]
  exact List.ne_nil_of_mem member

theorem fieldsOf_nodup (group_idx : Nat) : (schema.toSchema.fieldsOf group_idx).Nodup :=
  (List.nodup_finRange _).filter _

theorem groupsWithFields_nodup : (groupsWithFields schema).Nodup := List.nodup_range.filter _

-- What the default bits of a header say of a field.
def bitOf (schema : FragmentSchema) (hub : ReplicatedState) (i : Fin schema.count) : Bool :=
  (hub.filterGroups[schema.group i]?).any fun group => ReplicatedDefaultBits.get group.bits (fieldIndex schema i)

theorem applyDefaultBits_at (hub : ReplicatedState) (fields : FragmentFields schema) (group_idx : Nat) (i : Fin schema.count) :
    applyDefaultBits hub fields group_idx i =
      if schema.group i = group_idx ∧ bitOf schema hub i = true then (schema.type i).setCurrentValueAsDefault (fields i)
      else fields i := by
  unfold applyDefaultBits
  by_cases own : schema.group i = group_idx
  · subst own
    unfold bitOf
    cases hub.filterGroups[schema.group i]? with
    | none => simp
    | some group =>
      have member : i ∈ schema.toSchema.fieldsOf (schema.group i) := Schema.mem_fieldsOf.mpr rfl
      have changed := applySlots_change (fun i => (schema.type i).setCurrentValueAsDefault)
        (ReplicatedDefaultBits.get group.bits) 0 fields i (fieldsOf_nodup (schema.group i))
      rw [Nat.zero_add] at changed
      simp only [member,true_and] at changed ⊢
      exact changed
  · rw [if_neg fun both => own both.1]
    cases hub.filterGroups[group_idx]? with
    | none => rfl
    | some group =>
      have absent : i ∉ schema.toSchema.fieldsOf group_idx := mt Schema.mem_fieldsOf.mp own
      have changed := applySlots_change (fun i => (schema.type i).setCurrentValueAsDefault)
        (ReplicatedDefaultBits.get group.bits) 0 fields i (fieldsOf_nodup group_idx)
      rw [if_neg fun both => absent both.1] at changed
      exact changed

theorem applyDefaultBits_all (hub : ReplicatedState) (fields : FragmentFields schema) (i : Fin schema.count) :
    (groupsWithFields schema).foldl (applyDefaultBits hub) fields i =
      if bitOf schema hub i then (schema.type i).setCurrentValueAsDefault (fields i) else fields i := by
  have untouched : ∀ (groups : List Nat) (fields : FragmentFields schema), schema.group i ∉ groups →
      groups.foldl (applyDefaultBits hub) fields i = fields i := by
    intro groups
    induction groups with
    | nil => intro fields _; rfl
    | cons group_idx groups ih =>
      intro fields absent
      rw [List.mem_cons,not_or] at absent
      rw [List.foldl_cons,ih _ absent.2,applyDefaultBits_at,if_neg fun both => absent.1 both.1]
  obtain ⟨before,after,split⟩ := List.append_of_mem (mem_groupsWithFields i)
  have distinct : (before ++ schema.group i :: after).Nodup := split ▸ groupsWithFields_nodup
  rw [List.nodup_middle,List.nodup_cons,List.mem_append,not_or] at distinct
  rw [split,List.foldl_append,List.foldl_cons,untouched after _ distinct.1.2,applyDefaultBits_at,
    untouched before _ distinct.1.1]
  simp

end Groups

section Header
variable {schema : FragmentSchema}

theorem ensureFilterGroups_length (hub : ReplicatedState) (group_count : Nat) :
    (hub.ensureFilterGroups group_count).filterGroups.length =
      max hub.filterGroups.length (min group_count maxFiltergroupsPerReplicatedState) := by
  unfold ReplicatedState.ensureFilterGroups
  rw [List.length_append,List.length_replicate]
  omega

theorem calculateDefaultBits_length (fragment : DerivedFragment schema) :
    fragment.calculateDefaultBits.filterGroups.length =
      max fragment.hub.filterGroups.length (min (nGroups schema) maxFiltergroupsPerReplicatedState) := by
  have kept : ∀ (groups : List Nat) (hub : ReplicatedState),
      (groups.foldl (fun hub group_idx => hub.calculateDefaultBits group_idx (fragment.defaultFlags group_idx)) hub).filterGroups.length =
        hub.filterGroups.length := by
    intro groups
    induction groups with
    | nil => intro hub; rfl
    | cons group_idx groups ih =>
      intro hub
      rw [List.foldl_cons,ih]
      exact List.length_modify _ _ _
  unfold DerivedFragment.calculateDefaultBits
  rw [kept,ensureFilterGroups_length]

end Header
end NwNetwork.Hub
