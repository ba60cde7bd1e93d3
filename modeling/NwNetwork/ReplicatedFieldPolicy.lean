import NwNetwork.ReplicatedHandler

namespace NwNetwork.Serialize
open WireReader Hub

-- A field with the equality policy it has been given, if any. Its values may be of
-- a type whose own comparison has no laws.
structure PolicyHandler (α : Type) extends ReplicatedFieldHandler α where
  equals : Option (α → α → Bool)

namespace PolicyHandler
variable {α : Type}

def newWithEquals (value : Option α) (equals : Option (α → α → Bool)) : PolicyHandler α :=
  ⟨⟨value,if value.isSome then .validNonSequence else .invalid,none,false⟩,equals⟩

def setEqualsPolicy (field : PolicyHandler α) (equals : α → α → Bool) : PolicyHandler α :=
  { field with equals := some equals }

def setDefaultValue (field : PolicyHandler α) (default : α) : PolicyHandler α :=
  { field with toReplicatedFieldHandler := field.toReplicatedFieldHandler.setDefaultValue default }

def clearValue (field : PolicyHandler α) : PolicyHandler α :=
  { field with toReplicatedFieldHandler := field.toReplicatedFieldHandler.clearValue }

def setLastModified (field : PolicyHandler α) (seq : SequenceNumber) : PolicyHandler α :=
  { field with toReplicatedFieldHandler := field.toReplicatedFieldHandler.setLastModified seq }

def resetHasNewNetworkData (field : PolicyHandler α) : PolicyHandler α := { field with hasNewNetworkData := false }

-- Unmarshaling makes a new field, without the policy of the one it replaces.
def received (value : α) : PolicyHandler α := ⟨.received value,none⟩

section Compared
variable [BEq α]

def valuesEqual (field : PolicyHandler α) (left right : α) : Bool :=
  match field.equals with
  | some equals => equals left right
  | none => left == right

def isDefaultValue (field : PolicyHandler α) : Bool :=
  match field.defaultValue,field.value with
  | some default,some value => field.valuesEqual default value
  | _,_ => false

def setValue (field : PolicyHandler α) (newValue : α) : PolicyHandler α :=
  if field.defaultValue.any (field.valuesEqual · newValue) then
    { field with value := some newValue, lastModified := .invalid }
  else { field with value := some newValue, lastModified := .validNonSequence }

def setOptionalValue (field : PolicyHandler α) : Option α → PolicyHandler α
  | some value => field.setValue value
  | none => field.clearValue

variable [Inhabited α]

def access (field : PolicyHandler α) (cb : α → Bool × α) : PolicyHandler α :=
  { field with toReplicatedFieldHandler := field.toReplicatedFieldHandler.access cb }

def setCurrentValueAsDefault (field : PolicyHandler α) : PolicyHandler α :=
  { field with toReplicatedFieldHandler := field.toReplicatedFieldHandler.setCurrentValueAsDefault }

-- The new value is compared with its default by its own policy, and with the old
-- value by the policy of the merged field.
def mergeAndUpdateSequence (field oldValue newValue : PolicyHandler α) (same : Bool) (seq : SequenceNumber)
    (inherit_previous_network_data_status : Bool) : PolicyHandler α × Bool :=
  let oldSeq := oldValue.lastModified
  if same then
    if newValue.lastModified.isValid then
      ({ field with lastModified := seq, value := newValue.value, hasNewNetworkData := true },true)
    else if newValue.defaultValue.isSome then
      ({ field with value := newValue.value, hasNewNetworkData := false },true)
    else ({ field with hasNewNetworkData := false },true)
  else
    let defaultValue := oldValue.defaultValue.or newValue.defaultValue
    let oldEqualsNew := field.valuesEqual newValue.effectiveValue oldValue.effectiveValue
    let inherited := inherit_previous_network_data_status && oldValue.hasNewNetworkData
    if newValue.isDefaultValue then
      if !oldValue.lastModified.isValid && oldEqualsNew then
        (⟨⟨some newValue.effectiveValue,.invalid,defaultValue,inherited⟩,field.equals⟩,false)
      else if oldEqualsNew then
        (⟨⟨some newValue.effectiveValue,oldSeq,defaultValue,oldValue.hasNewNetworkData⟩,field.equals⟩,false)
      else (⟨⟨some newValue.effectiveValue,seq,defaultValue,true⟩,field.equals⟩,true)
    else if newValue.lastModified.isValid then
      if oldSeq.isValid && oldEqualsNew then (⟨⟨oldValue.value,oldSeq,defaultValue,inherited⟩,field.equals⟩,false)
      else (⟨⟨newValue.value,seq,defaultValue,true⟩,field.equals⟩,true)
    else (⟨⟨oldValue.value,oldSeq,defaultValue,inherited⟩,field.equals⟩,false)

end Compared

-- A field without a policy is the plain one.
section Plain
variable [DecidableEq α] {field oldValue newValue : PolicyHandler α}

theorem valuesEqual_plain (plain : field.equals = none) : field.valuesEqual = fun left right => left == right := by
  unfold valuesEqual
  rw [plain]

theorem isDefaultValue_plain (plain : field.equals = none) :
    field.isDefaultValue = field.toReplicatedFieldHandler.isDefaultValue := by
  unfold isDefaultValue ReplicatedFieldHandler.isDefaultValue
  cases field.defaultValue with
  | none => rfl
  | some default =>
    cases field.value with
    | none => rfl
    | some value => exact congrFun (congrFun (valuesEqual_plain plain) default) value

theorem setValue_plain (plain : field.equals = none) (value : α) :
    (field.setValue value).toReplicatedFieldHandler = field.toReplicatedFieldHandler.setValue value := by
  unfold setValue ReplicatedFieldHandler.setValue
  rw [valuesEqual_plain plain]
  split <;> rfl

theorem merge_plain [Inhabited α] (plain : field.equals = none) (plainNew : newValue.equals = none) (same : Bool)
    (seq : SequenceNumber) (inherited : Bool) :
    let merged := field.mergeAndUpdateSequence oldValue newValue same seq inherited
    (merged.1.toReplicatedFieldHandler,merged.2) = field.toReplicatedFieldHandler.mergeAndUpdateSequence
      oldValue.toReplicatedFieldHandler newValue.toReplicatedFieldHandler same seq inherited := by
  unfold mergeAndUpdateSequence ReplicatedFieldHandler.mergeAndUpdateSequence
  rw [isDefaultValue_plain plainNew,valuesEqual_plain plain]
  dsimp only
  repeat' split
  all_goals rfl

end Plain

section Valued
variable [BEq α] [Inhabited α] {field oldValue newValue : PolicyHandler α}

def Valued (field : PolicyHandler α) : Prop := field.toReplicatedFieldHandler.Valued

omit [BEq α] [Inhabited α] in
theorem newWithEquals_valued (value : Option α) (equals : Option (α → α → Bool)) : (newWithEquals value equals).Valued := by
  intro valid
  cases value with
  | none => cases valid
  | some value => rfl

omit [Inhabited α] in
theorem setValue_valued (field : PolicyHandler α) (value : α) : (field.setValue value).Valued := by
  unfold setValue
  split <;> exact fun _ => rfl

theorem merge_valued (old : oldValue.Valued) (new : newValue.Valued) (seq : SequenceNumber) (inherited : Bool) :
    (field.mergeAndUpdateSequence oldValue newValue false seq inherited).1.Valued := by
  unfold mergeAndUpdateSequence
  rw [if_neg Bool.false_ne_true]
  dsimp only
  split
  · split
    · exact fun _ => rfl
    · split <;> exact fun _ => rfl
  · split
    · rename_i modified
      split
      · exact old
      · exact fun _ => new modified
    · exact old

end Valued
end PolicyHandler

-- What a caller can do with a field beside merging it. An assignment is of a field
-- that is made with or without a value and a policy.
inductive FieldCall (α : Type) where
  | assign (value : Option α) (equals : Option (α → α → Bool))
  | setEqualsPolicy (equals : α → α → Bool)
  | setDefaultValue (default : α)
  | setValue (newValue : α)
  | setOptionalValue (newValue : Option α)
  | clearValue
  | access (cb : α → Bool × α)
  | setCurrentValueAsDefault
  | resetHasNewNetworkData
  | setLastModified (seq : SequenceNumber)
  | unmarshal (bytes : Bytes)

-- A plain field of a state, with the default and the policy that the `Default` of
-- the state gives it.
structure PolicyField where
  Value : Type
  equality : BEq Value
  inhabited : Inhabited Value
  codec : Codec MarshalerError Value
  initial : Option Value
  policy : Option (Value → Value → Bool)

attribute [instance] PolicyField.equality PolicyField.inhabited

namespace PolicyField
variable (plain : PolicyField)

def initialHandler : PolicyHandler plain.Value :=
  match plain.initial with
  | some default => (PolicyHandler.newWithEquals none plain.policy).setDefaultValue default
  | none => PolicyHandler.newWithEquals none plain.policy

theorem initialHandler_valued : plain.initialHandler.Valued := by
  unfold initialHandler
  split
  · exact ReplicatedFieldHandler.setDefaultValue_valued (PolicyHandler.newWithEquals_valued _ _) _
  · exact PolicyHandler.newWithEquals_valued _ _

def unmarshal : Read (PolicyHandler plain.Value) := do
  let value ← plain.codec.read
  pure (.received value)

-- A field whose bytes do not decode stays as it is.
def call (field : PolicyHandler plain.Value) : FieldCall plain.Value → PolicyHandler plain.Value
  | .assign value equals => .newWithEquals value equals
  | .setEqualsPolicy equals => field.setEqualsPolicy equals
  | .setDefaultValue default => field.setDefaultValue default
  | .setValue newValue => field.setValue newValue
  | .setOptionalValue newValue => field.setOptionalValue newValue
  | .clearValue => field.clearValue
  | .access cb => field.access cb
  | .setCurrentValueAsDefault => field.setCurrentValueAsDefault
  | .resetHasNewNetworkData => field.resetHasNewNetworkData
  | .setLastModified seq => field.setLastModified seq
  | .unmarshal bytes =>
    match plain.unmarshal bytes with
    | .ok (read,_) => read
    | .error _ => field

def handlerType : HandlerType where
  Handler := PolicyHandler plain.Value
  initial := plain.initialHandler
  isDirty field baseline := field.isDirtySince baseline
  marshal field := field.marshal plain.codec
  unmarshal := plain.unmarshal
  mergeAndUpdateSequence field old_value new_value seq inherit_status :=
    ((field.mergeAndUpdateSequence old_value new_value false seq inherit_status).1,new_value,
      (field.mergeAndUpdateSequence old_value new_value false seq inherit_status).2)
  lastModified field := field.lastModified
  hasNewNetworkData field := field.hasNewNetworkData
  marshalSince field _ := field.marshal plain.codec
  setLastModified field seq := field.setLastModified seq
  isDefaultValue field := field.isDefaultValue
  setCurrentValueAsDefault field := field.setCurrentValueAsDefault

theorem unmarshal_valued (read : plain.unmarshal bytes = .ok (field,rest)) : field.Valued := by
  obtain ⟨value,_,_,made⟩ := Reader.bind_eq_ok.mp read
  cases made
  exact ReplicatedFieldHandler.received_valued value

-- The one call that can make an empty field count as modified.
def Admits (field : PolicyHandler plain.Value) : FieldCall plain.Value → Prop
  | .setLastModified seq => seq.isValid = true → field.value.isSome = true
  | _ => True

theorem call_valued {field : PolicyHandler plain.Value} (valued : field.Valued) (change : FieldCall plain.Value)
    (admitted : plain.Admits field change) : (plain.call field change).Valued := by
  cases change with
  | assign value equals => exact PolicyHandler.newWithEquals_valued value equals
  | setEqualsPolicy equals => exact valued
  | setDefaultValue default => exact ReplicatedFieldHandler.setDefaultValue_valued valued default
  | setValue newValue => exact PolicyHandler.setValue_valued field newValue
  | setOptionalValue newValue =>
    cases newValue with
    | none => exact ReplicatedFieldHandler.clearValue_valued _
    | some value => exact PolicyHandler.setValue_valued field value
  | clearValue => exact ReplicatedFieldHandler.clearValue_valued _
  | access cb => exact ReplicatedFieldHandler.access_valued valued cb
  | setCurrentValueAsDefault => exact fun _ => rfl
  | resetHasNewNetworkData => exact valued
  | setLastModified seq => exact admitted
  | unmarshal bytes =>
    unfold call
    dsimp only
    cases read : plain.unmarshal bytes with
    | error error => exact valued
    | ok pair => exact plain.unmarshal_valued read

theorem marshal_received (field : PolicyHandler plain.Value) (has_value : field.value.isSome = true) :
    ∃ decoded : PolicyHandler plain.Value,
      (∀ rest, plain.unmarshal (field.marshal plain.codec ++ rest) = .ok (decoded,rest)) ∧
        decoded.value = field.value ∧ decoded.value.isSome = true := by
  obtain ⟨value,held⟩ := Option.isSome_iff_exists.mp has_value
  refine ⟨.received value,fun rest => ?_,held.symm,rfl⟩
  unfold ReplicatedFieldHandler.marshal
  rw [held]
  exact Reader.bind_ok (plain.codec.readsBack value rest)

def observation : Observation plain.handlerType where
  Content := Option plain.Value
  content field := (show PolicyHandler plain.Value from field).value
  HasValue field := (show PolicyHandler plain.Value from field).value.isSome = true
  readsBack field has_value := plain.marshal_received field has_value
  readsBackSince field _ has_value := plain.marshal_received field has_value
  stamped _ _ := rfl
  stampKeeps _ _ := rfl
  defaultKeeps field has_value := by
    obtain ⟨value,held⟩ := Option.isSome_iff_exists.mp has_value
    simp [handlerType,PolicyHandler.setCurrentValueAsDefault,ReplicatedFieldHandler.setCurrentValueAsDefault,
      ReplicatedFieldHandler.effectiveValue,held]

end PolicyField
end NwNetwork.Serialize
