import NwNetwork.ReplicatedConvergence

namespace NwNetwork.Serialize
open WireReader Hub ReplicatedFieldHandler

-- What a fragment asks of its fields, beside their contents and their merge.
structure HandlerType extends FieldType where
  marshalSince : Handler → SequenceNumber → Bytes
  setLastModified : Handler → SequenceNumber → Handler
  isDefaultValue : Handler → Bool
  setCurrentValueAsDefault : Handler → Handler

-- What the bytes of a handler that has a value carry, with the laws of the
-- codec: they are read back from any longer buffer, and what a fragment does to
-- the handler beside keeps it.
structure Observation (type : HandlerType) where
  Content : Type
  content : type.Handler → Content
  HasValue : type.Handler → Prop
  readsBack : ∀ field, HasValue field →
    ∃ decoded, type.ReadsAs field decoded ∧ content decoded = content field ∧ HasValue decoded
  readsBackSince : ∀ field baseline, HasValue field →
    ∃ decoded, (∀ rest, type.unmarshal (type.marshalSince field baseline ++ rest) = .ok (decoded,rest)) ∧
      content decoded = content field ∧ HasValue decoded
  stamped : ∀ field seq, type.lastModified (type.setLastModified field seq) = seq
  stampKeeps : ∀ field seq, content (type.setLastModified field seq) = content field
  defaultKeeps : ∀ field, HasValue field → content (type.setCurrentValueAsDefault field) = content field

structure FragmentSchema where
  count : Nat
  type : Fin count → HandlerType
  group : Fin count → Nat

abbrev FragmentSchema.toSchema (schema : FragmentSchema) : Schema := ⟨schema.count,fun i => (schema.type i).toFieldType,schema.group⟩

abbrev FragmentFields (schema : FragmentSchema) := ReplicatedState schema.toSchema

namespace ReplicatedFieldHandler
variable {α : Type}

def setLastModified (field : ReplicatedFieldHandler α) (seq : SequenceNumber) : ReplicatedFieldHandler α :=
  { field with lastModified := seq }

def setCurrentValueAsDefault [Inhabited α] (field : ReplicatedFieldHandler α) : ReplicatedFieldHandler α :=
  { field with value := some field.effectiveValue, defaultValue := some field.effectiveValue, lastModified := .invalid }

end ReplicatedFieldHandler

namespace PlainField
variable (plain : PlainField)

-- A plain field writes its value whatever the baseline.
def handlerType : HandlerType where
  Handler := ReplicatedFieldHandler plain.Value
  initial := plain.initialHandler
  isDirty field baseline := field.isDirtySince baseline
  marshal field := field.marshal plain.codec
  unmarshal := do
    let value ← plain.codec.read
    pure (received value)
  mergeAndUpdateSequence field old_value new_value seq inherit_status :=
    ((field.mergeAndUpdateSequence old_value new_value false seq inherit_status).1,new_value,
      (field.mergeAndUpdateSequence old_value new_value false seq inherit_status).2)
  lastModified field := field.lastModified
  hasNewNetworkData field := field.hasNewNetworkData
  marshalSince field _ := field.marshal plain.codec
  setLastModified field seq := field.setLastModified seq
  isDefaultValue field := field.isDefaultValue
  setCurrentValueAsDefault field := field.setCurrentValueAsDefault

theorem marshal_reads {field : ReplicatedFieldHandler plain.Value} {value : plain.Value} (held : field.value = some value) (rest : Bytes) :
    plain.handlerType.unmarshal (field.marshal plain.codec ++ rest) = .ok (received value,rest) := by
  unfold ReplicatedFieldHandler.marshal
  rw [held]
  exact Reader.bind_ok (plain.codec.readsBack value rest)

theorem marshal_received (field : ReplicatedFieldHandler plain.Value) (has_value : field.value.isSome = true) :
    ∃ decoded : ReplicatedFieldHandler plain.Value,
      (∀ rest, plain.handlerType.unmarshal (field.marshal plain.codec ++ rest) = .ok (decoded,rest)) ∧
        decoded.value = field.value ∧ decoded.value.isSome = true := by
  obtain ⟨value,held⟩ := Option.isSome_iff_exists.mp has_value
  exact ⟨received value,fun rest => plain.marshal_reads held rest,held.symm,rfl⟩

def observation : Observation plain.handlerType where
  Content := Option plain.Value
  content field := ReplicatedFieldHandler.value field
  HasValue field := (ReplicatedFieldHandler.value field).isSome = true
  readsBack field has_value := plain.marshal_received field has_value
  readsBackSince field _ has_value := plain.marshal_received field has_value
  stamped _ _ := rfl
  stampKeeps _ _ := rfl
  defaultKeeps field has_value := by
    obtain ⟨value,held⟩ := Option.isSome_iff_exists.mp has_value
    simp [handlerType,setCurrentValueAsDefault,effectiveValue,held]

end PlainField

def PlainSchema.toFragment (plain : PlainSchema) : FragmentSchema :=
  ⟨plain.count,fun i => (plain.field i).handlerType,plain.group⟩

end NwNetwork.Serialize
