import NwNetwork.HubSequenceNumber

namespace NwNetwork.Serialize
open WireReader Hub

-- A field without an equality policy of its own: values are compared as they are.
structure ReplicatedFieldHandler (α : Type) where
  value : Option α
  lastModified : SequenceNumber
  defaultValue : Option α
  hasNewNetworkData : Bool

namespace ReplicatedFieldHandler
variable {α : Type}

def empty : ReplicatedFieldHandler α := ⟨none,.invalid,none,false⟩

def isFieldValid (field : ReplicatedFieldHandler α) : Bool := field.lastModified.isValid

def clearValue (field : ReplicatedFieldHandler α) : ReplicatedFieldHandler α :=
  { field with value := none, lastModified := .invalid, hasNewNetworkData := false }

def isDirtySince (field : ReplicatedFieldHandler α) (baseline : SequenceNumber) : Bool :=
  field.lastModified.isValid && baseline.less field.lastModified

-- Only before the field becomes valid.
def setDefaultValue (field : ReplicatedFieldHandler α) (default : α) : ReplicatedFieldHandler α :=
  if !field.lastModified.isValid then { field with value := some default, defaultValue := some default } else field

def effectiveValue [Inhabited α] (field : ReplicatedFieldHandler α) : α := field.value.getD default

theorem less_dirty {field : ReplicatedFieldHandler α} (modified : baseline.less field.lastModified = true) :
    field.isDirtySince baseline = true := by
  unfold isDirtySince
  rw [SequenceNumber.less_valid modified,modified]
  rfl

section Equality
variable [DecidableEq α]

def isDefaultValue (field : ReplicatedFieldHandler α) : Bool :=
  match field.defaultValue,field.value with
  | some default,some value => default == value
  | _,_ => false

def hasValue (field : ReplicatedFieldHandler α) : Bool := field.isFieldValid || field.isDefaultValue

-- A value equal to the default is stored but not replicated.
def setValue (field : ReplicatedFieldHandler α) (newValue : α) : ReplicatedFieldHandler α :=
  if field.defaultValue.any (· == newValue) then { field with value := some newValue, lastModified := .invalid }
  else { field with value := some newValue, lastModified := .validNonSequence }

def setOptionalValue (field : ReplicatedFieldHandler α) : Option α → ReplicatedFieldHandler α
  | some value => field.setValue value
  | none => field.clearValue

variable [Inhabited α]

-- The callback says whether it has changed the value; a value it leaves behind
-- without saying so stays, except in an empty field.
def access (field : ReplicatedFieldHandler α) (cb : α → Bool × α) : ReplicatedFieldHandler α :=
  match field.value with
  | some value =>
    let (changed,value) := cb value
    if changed then { field with value := some value, lastModified := .validNonSequence }
    else { field with value := some value }
  | none =>
    let (changed,value) := cb default
    if changed then { field with value := some value, lastModified := .validNonSequence } else field

-- The merged field and whether the merge has seen new data. `same` says that the
-- old and the new field are one object.
def mergeAndUpdateSequence (field oldValue newValue : ReplicatedFieldHandler α) (same : Bool) (seq : SequenceNumber)
    (inherit_previous_network_data_status : Bool) : ReplicatedFieldHandler α × Bool :=
  let oldSeq := oldValue.lastModified
  if same then
    if newValue.lastModified.isValid then
      ({ field with lastModified := seq, value := newValue.value, hasNewNetworkData := true },true)
    else if newValue.defaultValue.isSome then
      ({ field with value := newValue.value, hasNewNetworkData := false },true)
    else ({ field with hasNewNetworkData := false },true)
  else
    let defaultValue := oldValue.defaultValue.or newValue.defaultValue
    let oldEqualsNew := newValue.effectiveValue == oldValue.effectiveValue
    let inherited := inherit_previous_network_data_status && oldValue.hasNewNetworkData
    if newValue.isDefaultValue then
      if !oldValue.lastModified.isValid && oldEqualsNew then
        (⟨some newValue.effectiveValue,.invalid,defaultValue,inherited⟩,false)
      else if oldEqualsNew then
        (⟨some newValue.effectiveValue,oldSeq,defaultValue,oldValue.hasNewNetworkData⟩,false)
      else (⟨some newValue.effectiveValue,seq,defaultValue,true⟩,true)
    else if newValue.lastModified.isValid then
      if oldSeq.isValid && oldEqualsNew then (⟨oldValue.value,oldSeq,defaultValue,inherited⟩,false)
      else (⟨newValue.value,seq,defaultValue,true⟩,true)
    else (⟨oldValue.value,oldSeq,defaultValue,inherited⟩,false)

end Equality

def marshal (codec : Codec MarshalerError α) (field : ReplicatedFieldHandler α) : Bytes :=
  match field.value with
  | some value => codec.write value
  | none => []

-- What unmarshaling makes of the value it has read.
def received (value : α) : ReplicatedFieldHandler α := ⟨some value,.validNonSequence,none,true⟩

end ReplicatedFieldHandler

inductive FieldEdit (α : Type) where
  | setValue (newValue : α)
  | setOptionalValue (newValue : Option α)
  | clearValue
  | access (cb : α → Bool × α)

namespace ReplicatedFieldHandler

-- A field that counts as modified has a value to send.
def Valued (field : ReplicatedFieldHandler α) : Prop := field.lastModified.isValid = true → field.value.isSome = true

theorem empty_valued : (empty : ReplicatedFieldHandler α).Valued := fun valid => nomatch valid

theorem received_valued (value : α) : (received value).Valued := fun _ => rfl

theorem setDefaultValue_valued {field : ReplicatedFieldHandler α} (valued : field.Valued) (value : α) :
    (field.setDefaultValue value).Valued := by
  unfold setDefaultValue
  split
  · exact fun _ => rfl
  · exact valued

theorem clearValue_valued (field : ReplicatedFieldHandler α) : field.clearValue.Valued := fun valid => nomatch valid

theorem setValue_valued [DecidableEq α] (field : ReplicatedFieldHandler α) (value : α) :
    (field.setValue value).Valued := by
  unfold setValue
  split <;> exact fun _ => rfl

section Merge
variable {α : Type} [DecidableEq α] [Inhabited α]
variable {field oldValue newValue : ReplicatedFieldHandler α} {seq : SequenceNumber}

def edit (field : ReplicatedFieldHandler α) : FieldEdit α → ReplicatedFieldHandler α
  | .setValue newValue => field.setValue newValue
  | .setOptionalValue newValue => field.setOptionalValue newValue
  | .clearValue => field.clearValue
  | .access cb => field.access cb

omit [DecidableEq α] in
theorem access_valued (valued : field.Valued) (cb : α → Bool × α) : (field.access cb).Valued := by
  unfold access
  cases field.value with
  | some value =>
    dsimp only
    split <;> exact fun _ => rfl
  | none =>
    dsimp only
    split
    · exact fun _ => rfl
    · exact valued

theorem edit_valued (valued : field.Valued) (change : FieldEdit α) : (field.edit change).Valued := by
  cases change with
  | setValue newValue => exact setValue_valued field newValue
  | setOptionalValue newValue =>
    cases newValue with
    | none => exact clearValue_valued field
    | some value => exact setValue_valued field value
  | clearValue => exact clearValue_valued field
  | access cb => exact access_valued valued cb

-- What a merge does with the old field when it takes the new one, with everything
-- it notes of the change.
structure Accepts (oldValue newValue merged : ReplicatedFieldHandler α) (seq : SequenceNumber) (detected : Bool) :
    Prop where
  carried : newValue.hasValue = true
  value : merged.effectiveValue = newValue.effectiveValue
  differs : oldValue.lastModified.isValid = true → newValue.effectiveValue ≠ oldValue.effectiveValue
  stamped : merged.lastModified = seq
  flagged : merged.hasNewNetworkData = true
  reported : detected = true

-- What a merge leaves of the old field when the new one has nothing to change in it.
structure Retains (oldValue newValue merged : ReplicatedFieldHandler α) (detected : Bool) : Prop where
  same : newValue.hasValue = true → newValue.effectiveValue = oldValue.effectiveValue
  value : merged.effectiveValue = oldValue.effectiveValue
  sequence : merged.lastModified = oldValue.lastModified ∨
    oldValue.lastModified.isValid = false ∧ merged.lastModified = .invalid
  silent : detected = false

theorem merge_outcome (field oldValue newValue : ReplicatedFieldHandler α) (seq : SequenceNumber) (inherited : Bool) :
    Accepts oldValue newValue (field.mergeAndUpdateSequence oldValue newValue false seq inherited).1 seq
        (field.mergeAndUpdateSequence oldValue newValue false seq inherited).2 ∨
      Retains oldValue newValue (field.mergeAndUpdateSequence oldValue newValue false seq inherited).1
        (field.mergeAndUpdateSequence oldValue newValue false seq inherited).2 := by
  unfold mergeAndUpdateSequence
  rw [if_neg Bool.false_ne_true]
  dsimp only
  cases ofDefault : newValue.isDefaultValue with
  | true =>
    have carried : newValue.hasValue = true := by simp [hasValue,ofDefault]
    rw [if_pos rfl]
    by_cases equal : newValue.effectiveValue = oldValue.effectiveValue
    · simp only [equal,beq_self_eq_true,Bool.and_true]
      cases valid : oldValue.lastModified.isValid with
      | false => exact .inr ⟨fun _ => equal,rfl,.inr ⟨valid,rfl⟩,rfl⟩
      | true => exact .inr ⟨fun _ => equal,rfl,.inl rfl,rfl⟩
    · rw [beq_eq_false_iff_ne.mpr equal,Bool.and_false]
      exact .inl ⟨carried,rfl,fun _ => equal,rfl,rfl,rfl⟩
  | false =>
    rw [if_neg Bool.false_ne_true]
    cases modified : newValue.lastModified.isValid with
    | false =>
      have absent : ¬newValue.hasValue = true := by simp [hasValue,isFieldValid,ofDefault,modified]
      exact .inr ⟨fun carried => absurd carried absent,rfl,.inl rfl,rfl⟩
    | true =>
      have carried : newValue.hasValue = true := by simp [hasValue,isFieldValid,modified]
      rw [if_pos rfl]
      by_cases equal : newValue.effectiveValue = oldValue.effectiveValue
      · cases valid : oldValue.lastModified.isValid with
        | false => exact .inl ⟨carried,rfl,fun present => absurd (valid.symm.trans present) Bool.false_ne_true,rfl,rfl,rfl⟩
        | true =>
          simp only [equal,beq_self_eq_true,Bool.and_self]
          exact .inr ⟨fun _ => equal,rfl,.inl rfl,rfl⟩
      · rw [beq_eq_false_iff_ne.mpr equal,Bool.and_false]
        exact .inl ⟨carried,rfl,fun _ => equal,rfl,rfl,rfl⟩

-- What a merge of two different fields does: it takes the new value if that is a
-- default or counts as modified, and a value that changes gets the new sequence.
theorem merge_cases (field oldValue newValue : ReplicatedFieldHandler α) (seq : SequenceNumber) (inherited : Bool) :
    (field.mergeAndUpdateSequence oldValue newValue false seq inherited).1.effectiveValue =
        (if newValue.isDefaultValue || newValue.lastModified.isValid then newValue.effectiveValue
        else oldValue.effectiveValue) ∧
      ((field.mergeAndUpdateSequence oldValue newValue false seq inherited).1.lastModified = seq ∨
        (field.mergeAndUpdateSequence oldValue newValue false seq inherited).1.effectiveValue =
          oldValue.effectiveValue ∧
        (oldValue.lastModified.isValid = true →
          (field.mergeAndUpdateSequence oldValue newValue false seq inherited).1.lastModified =
            oldValue.lastModified)) := by
  rw [Bool.or_comm]
  change _ = (if newValue.hasValue then _ else _) ∧ _
  rcases merge_outcome field oldValue newValue seq inherited with accepts | retains
  · rw [if_pos accepts.carried]
    exact ⟨accepts.value,.inl accepts.stamped⟩
  · refine ⟨?_,.inr ⟨retains.value,fun valid => ?_⟩⟩
    · rw [retains.value]
      split
      · rename_i carried
        exact (retains.same carried).symm
      · rfl
    · rcases retains.sequence with kept | ⟨invalid,_⟩
      · exact kept
      · exact absurd (invalid.symm.trans valid) Bool.false_ne_true

-- The law of a merge into a default field, as far as it tells on later deltas.
structure MergeLaw (oldValue newValue merged : ReplicatedFieldHandler α) (seq : SequenceNumber) (detected : Bool) :
    Prop where
  value : merged.effectiveValue = if newValue.hasValue then newValue.effectiveValue else oldValue.effectiveValue
  changed : merged.effectiveValue ≠ oldValue.effectiveValue →
    merged.lastModified = seq ∧ merged.hasNewNetworkData = true ∧ detected = true
  unchanged : merged.effectiveValue = oldValue.effectiveValue → oldValue.lastModified.isValid = true →
    merged.lastModified = oldValue.lastModified
  monotone : merged.lastModified.less oldValue.lastModified = false

theorem merge_law (oldValue newValue : ReplicatedFieldHandler α) (seq : SequenceNumber)
    (inherit_previous_network_data_status : Bool) (notOlder : seq.less oldValue.lastModified = false) :
    MergeLaw oldValue newValue
      (empty.mergeAndUpdateSequence oldValue newValue false seq inherit_previous_network_data_status).1 seq
      (empty.mergeAndUpdateSequence oldValue newValue false seq inherit_previous_network_data_status).2 := by
  rcases merge_outcome empty oldValue newValue seq inherit_previous_network_data_status with accepts | retains
  · refine ⟨?_,fun _ => ⟨accepts.stamped,accepts.flagged,accepts.reported⟩,fun same present => ?_,?_⟩
    · rw [if_pos accepts.carried,accepts.value]
    · exact absurd (accepts.value.symm.trans same) (accepts.differs present)
    · rw [accepts.stamped,notOlder]
  · refine ⟨?_,fun changed => absurd retains.value changed,fun _ present => ?_,?_⟩
    · rw [retains.value]
      split
      · rename_i carried
        exact (retains.same carried).symm
      · rfl
    · rcases retains.sequence with kept | ⟨invalid,_⟩
      · exact kept
      · exact absurd (invalid.symm.trans present) Bool.false_ne_true
    · rcases retains.sequence with kept | ⟨invalid,_⟩
      · rw [kept,SequenceNumber.not_less_self]
      · apply Bool.eq_false_iff.mpr
        intro above
        exact absurd (invalid.symm.trans (SequenceNumber.less_valid above)) Bool.false_ne_true

-- A value that arrives over an older one, at the sequence of the merge.
theorem merge_law_newer :
    MergeLaw (⟨some 3,.seq 4,none,false⟩ : ReplicatedFieldHandler Nat) (received 5)
      (empty.mergeAndUpdateSequence ⟨some 3,.seq 4,none,false⟩ (received 5) false (.seq 7) true).1 (.seq 7)
      (empty.mergeAndUpdateSequence ⟨some 3,.seq 4,none,false⟩ (received 5) false (.seq 7) true).2 :=
  merge_law _ _ _ _ (by decide)

theorem merge_valued (old : oldValue.Valued) (new : newValue.Valued) (inherited : Bool) :
    (field.mergeAndUpdateSequence oldValue newValue false seq inherited).1.Valued := by
  unfold mergeAndUpdateSequence
  rw [if_neg Bool.false_ne_true]
  dsimp only
  split
  · split
    · exact fun _ => rfl
    · split <;> exact fun _ => rfl
  · split
    · rename_i modified
      split
      · exact old
      · exact fun _ => new modified
    · exact old

end Merge
end ReplicatedFieldHandler

-- How the values of a field are written and read; nothing is asked of the two.
structure FieldMarshaler (α : Type) where
  marshal : α → Bytes
  unmarshal : Read α

namespace ReplicatedFieldHandler
variable {α : Type} {marshaler : FieldMarshaler α} {field held : ReplicatedFieldHandler α}

def marshalBy (marshaler : FieldMarshaler α) (field : ReplicatedFieldHandler α) : Bytes :=
  match field.value with
  | some value => marshaler.marshal value
  | none => []

def unmarshalBy (marshaler : FieldMarshaler α) : Read (ReplicatedFieldHandler α) := do
  let value ← marshaler.unmarshal
  pure (received value)

-- What is sent of a field, if anything.
def sendBy (marshaler : FieldMarshaler α) (sent : Bool) (field : ReplicatedFieldHandler α) : Option Bytes :=
  if sent then some (field.marshalBy marshaler) else none

-- A field that is not sent stays as the receiver holds it.
def applyBy (marshaler : FieldMarshaler α) (held : ReplicatedFieldHandler α) :
    Option Bytes → Except MarshalerError (ReplicatedFieldHandler α)
  | none => .ok held
  | some bytes => (unmarshalBy marshaler bytes).map fun read => read.1

theorem setValue_value [DecidableEq α] (field : ReplicatedFieldHandler α) (newValue : α) :
    (field.setValue newValue).value = some newValue := by
  unfold setValue
  split <;> rfl

-- A receiver that held what is not sent holds all of the field afterwards.
theorem apply_sent (back : ∀ value, field.value = some value → ReadsBack marshaler.marshal marshaler.unmarshal value)
    (filled : sent = true → field.value ≠ none) (kept : sent = false → held.value = field.value) :
    ∃ next, held.applyBy marshaler (field.sendBy marshaler sent) = .ok next ∧ next.value = field.value := by
  cases sent with
  | false => exact ⟨held,rfl,kept rfl⟩
  | true =>
    cases holds : field.value with
    | none => exact absurd holds (filled rfl)
    | some value =>
      have read := back value holds []
      rw [List.append_nil] at read
      have unmarshaled : unmarshalBy marshaler (marshaler.marshal value) = .ok (received value,[]) := Reader.bind_ok read
      refine ⟨received value,?_,rfl⟩
      unfold sendBy marshalBy applyBy
      rw [if_pos rfl,holds]
      exact congrArg (Except.map _) unmarshaled

end ReplicatedFieldHandler

end NwNetwork.Serialize
