import NwNetwork.ReplicatedFieldPolicy
import NwNetwork.HubFullFragment
import NwNetwork.StateRuns

namespace NwNetwork.Hub
open WireReader MaskedSlots Serialize StateRuns

-- A state with plain fields only, which the derived code and the hand-written one
-- can both encode.
structure PayloadLayout where
  count : Nat
  field : Fin count → PolicyField
  group : Fin count → Nat
  nGroups : Nat
  clientWhitelistSize : Nat
  capacity : clientWhitelistSize < 2^32

namespace PayloadLayout

def toFixed (layout : PayloadLayout) : FixedSchema where
  toFragmentSchema := ⟨layout.count,fun i => (layout.field i).handlerType,layout.group⟩
  nGroups := layout.nGroups
  clientWhitelistSize := layout.clientWhitelistSize
  capacity := layout.capacity

abbrev toFragment (layout : PayloadLayout) : FragmentSchema := layout.toFixed.toFragmentSchema

abbrev Fields (layout : PayloadLayout) := (i : Fin layout.count) → PolicyHandler (layout.field i).Value

end PayloadLayout

section Decoding
variable {schema : Schema} {state after : Serialize.ReplicatedState schema}

-- A field is as it was or comes from bytes of its own.
def Arrived (state after : Serialize.ReplicatedState schema) : Prop :=
  ∀ i, after i = state i ∨ ∃ bytes rest, (schema.type i).unmarshal bytes = .ok (after i,rest)

theorem arrived_refl (state : Serialize.ReplicatedState schema) : Arrived state state := fun _ => .inl rfl

theorem arrived_trans {middle : Serialize.ReplicatedState schema} (first : Arrived state middle) (second : Arrived middle after) :
    Arrived state after := by
  intro i
  rcases second i with same | read
  · rw [same]
    exact first i
  · exact .inr read

theorem arrived_set {i : Fin schema.count} {field : (schema.type i).Handler}
    (read : (schema.type i).unmarshal bytes = .ok (field,rest)) : Arrived state (state.set i field) := by
  intro j
  by_cases here : j = i
  · subst here
    rw [Serialize.ReplicatedState.set_same]
    exact .inr ⟨_,_,read⟩
  · exact .inl (Serialize.ReplicatedState.set_other _ here _)

theorem unmarshalField_arrived (ran : state.unmarshalField field_mask field_index i bytes = .ok (after,rest)) :
    Arrived state after := by
  unfold Serialize.ReplicatedState.unmarshalField at ran
  split at ran
  · obtain ⟨field,_,read,made⟩ := Reader.bind_eq_ok.mp ran
    cases made
    exact arrived_set read
  · cases ran
    exact arrived_refl state

theorem unmarshalGroupFields_arrived (ran : Serialize.ReplicatedState.unmarshalGroupFields field_count fields field_index field_mask
    descriptor_done state bytes = .ok ((after,done),rest)) : Arrived state after := by
  induction fields generalizing field_index field_mask descriptor_done state bytes with
  | nil =>
    cases ran
    exact arrived_refl _
  | cons i fields ih =>
    unfold Serialize.ReplicatedState.unmarshalGroupFields at ran
    split at ran
    · exact ih ran
    · obtain ⟨mask,_,_,ran⟩ := Reader.bind_eq_ok.mp ran
      obtain ⟨middle,_,read,ran⟩ := Reader.bind_eq_ok.mp ran
      exact arrived_trans (unmarshalField_arrived read) (ih ran)

theorem unmarshalDescribed_arrived (ran : Serialize.ReplicatedState.unmarshalDescribed descriptor_mask group_idx state bytes =
    .ok (after,rest)) : Arrived state after := by
  unfold Serialize.ReplicatedState.unmarshalDescribed at ran
  split at ran
  · split at ran
    · obtain ⟨_,_,_,made⟩ := Reader.bind_eq_ok.mp ran
      cases made
      exact arrived_refl state
    · obtain ⟨⟨middle,done⟩,_,read,ran⟩ := Reader.bind_eq_ok.mp ran
      dsimp only at ran
      split at ran
      · obtain ⟨_,_,_,made⟩ := Reader.bind_eq_ok.mp ran
        cases made
        exact unmarshalGroupFields_arrived read
      · cases ran
        exact unmarshalGroupFields_arrived read
  · cases ran
    exact arrived_refl state

theorem unmarshalGroups_arrived (ran : Serialize.ReplicatedState.unmarshalGroups descriptor_mask groups state bytes =
    .ok (after,rest)) : Arrived state after := by
  induction groups generalizing state bytes with
  | nil =>
    cases ran
    exact arrived_refl _
  | cons group_idx groups ih =>
    obtain ⟨middle,_,read,ran⟩ := Reader.bind_eq_ok.mp ran
    exact arrived_trans (unmarshalDescribed_arrived read) (ih ran)

theorem unmarshalChunks_arrived (ran : Serialize.ReplicatedState.unmarshalChunks chunks state bytes = .ok (after,rest)) :
    Arrived state after := by
  induction chunks generalizing state bytes with
  | nil =>
    cases ran
    exact arrived_refl _
  | cons chunk_idx chunks ih =>
    obtain ⟨mask,_,_,ran⟩ := Reader.bind_eq_ok.mp ran
    obtain ⟨middle,_,read,ran⟩ := Reader.bind_eq_ok.mp ran
    exact arrived_trans (unmarshalGroups_arrived read) (ih ran)

end Decoding

section Stamping
variable {layout : PayloadLayout}

def stamp (fields : layout.Fields) (stamped : Fin layout.count × SequenceNumber) : layout.Fields :=
  Function.update fields stamped.1 ((fields stamped.1).setLastModified stamped.2)

theorem stamp_value (fields : layout.Fields) (stamped : Fin layout.count × SequenceNumber) (i : Fin layout.count) :
    (stamp fields stamped i).value = (fields i).value := by
  unfold stamp
  by_cases here : i = stamped.1
  · subst here
    rw [Function.update_self]
    rfl
  · rw [Function.update_of_ne here]

theorem stampAll_value (stamps : List (Fin layout.count × SequenceNumber)) (fields : layout.Fields) (i : Fin layout.count) :
    (stamps.foldl stamp fields i).value = (fields i).value := by
  induction stamps generalizing fields with
  | nil => rfl
  | cons stamped stamps ih => rw [List.foldl_cons,ih,stamp_value]

theorem stampAll_other {stamps : List (Fin layout.count × SequenceNumber)} (absent : ∀ stamped ∈ stamps, stamped.1 ≠ i)
    (fields : layout.Fields) : stamps.foldl stamp fields i = fields i := by
  induction stamps generalizing fields with
  | nil => rfl
  | cons stamped stamps ih =>
    rw [List.foldl_cons,ih fun later present => absent later (List.mem_cons_of_mem _ present)]
    exact Function.update_of_ne (absent stamped List.mem_cons_self).symm _ _

theorem stampAll_sequence {stamps : List (Fin layout.count × SequenceNumber)} (distinct : (stamps.map Prod.fst).Nodup)
    (present : stamped ∈ stamps) (fields : layout.Fields) :
    (stamps.foldl stamp fields stamped.1).lastModified = stamped.2 := by
  induction stamps generalizing fields with
  | nil => cases present
  | cons first stamps ih =>
    rw [List.map_cons,List.nodup_cons] at distinct
    rw [List.foldl_cons]
    rcases List.mem_cons.mp present with rfl | later
    · rw [stampAll_other]
      · unfold stamp
        rw [Function.update_self]
        rfl
      · intro other inside same
        exact distinct.1 (List.mem_map.mpr ⟨other,inside,same⟩)
    · exact ih distinct.2 later _

-- The sequences of a stream go to the fields in their order.
theorem sequences_read {order : List (Fin layout.count)} {fields after : layout.Fields} {bit : Nat}
    (ran : readSlots (@unmarshalSequence layout.toFragment) (fun _ => true) bit order fields bytes =
      .ok (after,rest)) :
    ∃ sequences, Reader.times SequenceNumber.unmarshal order.length bytes = .ok (sequences,rest) ∧
      sequences.length = order.length ∧ after = (order.zip sequences).foldl stamp fields := by
  induction order generalizing bit fields bytes with
  | nil =>
    cases ran
    exact ⟨[],rfl,rfl,rfl⟩
  | cons i order ih =>
    obtain ⟨middle,_,first,ran⟩ := Reader.bind_eq_ok.mp ran
    obtain ⟨sequence,_,read,made⟩ := Reader.bind_eq_ok.mp first
    cases made
    obtain ⟨sequences,reads,count,rfl⟩ := ih ran
    refine ⟨sequence :: sequences,?_,congrArg Nat.succ count,rfl⟩
    exact (Reader.bind_ok read).trans (Reader.bind_ok reads)

end Stamping

-- A way to encode a state, and what its readers can do to the fields: the contents
-- replace some, the attributes make some of them defaults, and the metadata gives
-- each of an order its sequence.
structure FragmentKind (layout : PayloadLayout) where
  Header : Type
  State : Type
  make : Header → layout.Fields → State
  fields : State → layout.Fields
  contents : State → Read (State × Bool)
  attributes : State → Read (State × Bool)
  metadata : State → Read (State × Bool)
  full : State → Read (State × Bool)
  order : List (Fin layout.count)
  distinct : order.Nodup
  made : ∀ header made, fields (make header made) = made
  contentsArrive : contents state bytes = .ok (done,rest) → ∀ i, fields done.1 i = fields state i ∨
    ∃ own left, (layout.field i).unmarshal own = .ok (fields done.1 i,left)
  attributesDefault : attributes state bytes = .ok (done,rest) → ∀ i, fields done.1 i = fields state i ∨
    fields done.1 i = (fields state i).setCurrentValueAsDefault
  metadataStamps : metadata state bytes = .ok (done,rest) →
    ∃ sequences left, Reader.times SequenceNumber.unmarshal order.length bytes = .ok (sequences,left) ∧
      sequences.length = order.length ∧ fields done.1 = (order.zip sequences).foldl stamp (fields state)
  fullSteps : full state bytes = .ok (done,rest) → ∃ read left attributed remaining stamped,
    contents state bytes = .ok (read,left) ∧ attributes read.1 left = .ok (attributed,remaining) ∧
      metadata attributed.1 remaining = .ok (stamped,rest) ∧ fields done.1 = fields stamped.1

section Derived
variable {layout : PayloadLayout}

theorem derived_attributes {fragment : DerivedFragment layout.toFragment}
    (ran : fragment.unmarshalAttributes bytes = .ok (done,rest)) (i : Fin layout.count) :
    done.1.fields i = fragment.fields i ∨
      done.1.fields i = (layout.toFragment.type i).setCurrentValueAsDefault (fragment.fields i) := by
  obtain ⟨⟨hub,any⟩,_,_,made⟩ := Reader.bind_eq_ok.mp ran
  cases made
  have all := @applyDefaultBits_all layout.toFragment hub fragment.fields i
  by_cases set : bitOf layout.toFragment hub i = true
  · rw [if_pos set] at all
    exact .inr all
  · rw [if_neg set] at all
    exact .inl all

theorem derived_metadata {fragment : DerivedFragment layout.toFragment}
    (ran : fragment.unmarshalFieldMetadata bytes = .ok (done,rest)) :
    ∃ sequences left, Reader.times SequenceNumber.unmarshal
        (Serialize.ReplicatedState.fieldOrder layout.toFragment.toSchema).length bytes = .ok (sequences,left) ∧
      sequences.length = (Serialize.ReplicatedState.fieldOrder layout.toFragment.toSchema).length ∧
      done.1.fields = ((Serialize.ReplicatedState.fieldOrder layout.toFragment.toSchema).zip sequences).foldl stamp fragment.fields := by
  obtain ⟨fields,left,read,ran⟩ := Reader.bind_eq_ok.mp ran
  obtain ⟨hub,_,_,made⟩ := Reader.bind_eq_ok.mp ran
  cases made
  obtain ⟨sequences,reads,count,same⟩ := sequences_read read
  exact ⟨sequences,left,reads,count,same⟩

def derivedKind (layout : PayloadLayout) : FragmentKind layout where
  Header := ReplicatedState
  State := DerivedFragment layout.toFragment
  make hub fields := ⟨hub,fields⟩
  fields := DerivedFragment.fields
  contents := DerivedFragment.unmarshalContents
  attributes := DerivedFragment.unmarshalAttributes
  metadata := DerivedFragment.unmarshalFieldMetadata
  full := DerivedFragment.fullUnmarshal
  order := Serialize.ReplicatedState.fieldOrder layout.toFragment.toSchema
  distinct := fieldsOf_flatMap_nodup List.nodup_range
  made _ _ := rfl
  contentsArrive ran i := by
    obtain ⟨fields,_,read,made⟩ := Reader.bind_eq_ok.mp ran
    cases made
    exact unmarshalChunks_arrived read i
  attributesDefault ran i := derived_attributes ran i
  metadataStamps ran := derived_metadata ran
  fullSteps ran := by
    obtain ⟨read,left,first,ran⟩ := Reader.bind_eq_ok.mp ran
    obtain ⟨attributed,remaining,second,ran⟩ := Reader.bind_eq_ok.mp ran
    obtain ⟨stamped,_,third,made⟩ := Reader.bind_eq_ok.mp ran
    cases made
    exact ⟨read,left,attributed,remaining,stamped,first,second,third,rfl⟩

end Derived

section Fixed
variable {layout : PayloadLayout}

theorem fixed_group_arrived {fields : FragmentFields layout.toFragment}
    (ran : @FixedFragment.unmarshalFields layout.toFixed group_idx fields bytes = .ok (done,rest)) :
    Arrived fields done.1 := by
  unfold FixedFragment.unmarshalFields at ran
  split at ran
  · cases ran
    exact arrived_refl _
  · obtain ⟨presence,_,_,ran⟩ := Reader.bind_eq_ok.mp ran
    split at ran
    · cases ran
      exact arrived_refl _
    · obtain ⟨after,_,read,made⟩ := Reader.bind_eq_ok.mp ran
      cases made
      have each : ∀ {i state bytes after rest}, @FixedFragment.unmarshalField layout.toFixed i state bytes = .ok (after,rest) →
          Arrived state after := by
        intro i state bytes after rest read
        obtain ⟨field,_,read,made⟩ := Reader.bind_eq_ok.mp read
        cases made
        exact arrived_set read
      exact readSlots_related Arrived arrived_refl arrived_trans each read

theorem fixed_contents {fragment : FixedFragment layout.toFixed}
    (ran : fragment.unmarshalFixedContents bytes = .ok (done,rest)) : Arrived fragment.fields done.1.fields := by
  obtain ⟨present,_,_,ran⟩ := Reader.bind_eq_ok.mp ran
  obtain ⟨⟨after,any⟩,_,read,made⟩ := Reader.bind_eq_ok.mp ran
  cases made
  have each : ∀ {group_idx bytes rest} {state after : FragmentFields layout.toFragment × Bool},
      @FixedFragment.unmarshalPresent layout.toFixed group_idx state bytes = .ok (after,rest) → Arrived state.1 after.1 := by
    intro group_idx bytes rest state after read
    obtain ⟨group,_,read,made⟩ := Reader.bind_eq_ok.mp read
    cases made
    have arrived : Arrived state.1 group.1 := fixed_group_arrived read
    exact arrived
  exact readSlots_related (fun before after : FragmentFields layout.toFragment × Bool => Arrived before.1 after.1)
    (fun state => arrived_refl state.1) arrived_trans each read

theorem fixed_attributes {fragment : FixedFragment layout.toFixed}
    (ran : fragment.unmarshalClientWhitelistAttributes bytes = .ok (done,rest)) : done.1.fields = fragment.fields := by
  obtain ⟨mask,_,_,ran⟩ := Reader.bind_eq_ok.mp ran
  split at ran
  · cases ran
    rfl
  · obtain ⟨groups,_,_,made⟩ := Reader.bind_eq_ok.mp ran
    cases made
    rfl

theorem fixed_metadata {fragment : FixedFragment layout.toFixed}
    (ran : fragment.unmarshalMetadataSequences bytes = .ok (done,rest)) :
    ∃ sequences left, Reader.times SequenceNumber.unmarshal (registeredFields layout.toFixed).length bytes = .ok (sequences,left) ∧
      sequences.length = (registeredFields layout.toFixed).length ∧
      done.1.fields = ((registeredFields layout.toFixed).zip sequences).foldl stamp fragment.fields := by
  obtain ⟨fields,left,read,ran⟩ := Reader.bind_eq_ok.mp ran
  obtain ⟨groups,_,_,made⟩ := Reader.bind_eq_ok.mp ran
  cases made
  obtain ⟨sequences,reads,count,same⟩ := sequences_read read
  exact ⟨sequences,left,reads,count,same⟩

def fixedKind (layout : PayloadLayout) : FragmentKind layout where
  Header := Fin layout.nGroups → FieldGroupState layout.clientWhitelistSize
  State := FixedFragment layout.toFixed
  make groups fields := ⟨groups,fields⟩
  fields := FixedFragment.fields
  contents := FixedFragment.unmarshalFixedContents
  attributes := FixedFragment.unmarshalClientWhitelistAttributes
  metadata := FixedFragment.unmarshalMetadataSequences
  full := FixedFragment.fullUnmarshal
  order := registeredFields layout.toFixed
  distinct := fieldsOf_flatMap_nodup List.nodup_range
  made _ _ := rfl
  contentsArrive ran i := fixed_contents ran i
  attributesDefault ran i := .inl (congrFun (fixed_attributes ran) i)
  metadataStamps ran := fixed_metadata ran
  fullSteps ran := by
    obtain ⟨read,left,first,ran⟩ := Reader.bind_eq_ok.mp ran
    obtain ⟨attributed,remaining,second,ran⟩ := Reader.bind_eq_ok.mp ran
    obtain ⟨stamped,_,third,made⟩ := Reader.bind_eq_ok.mp ran
    cases made
    exact ⟨read,left,attributed,remaining,stamped,first,second,third,rfl⟩

end Fixed

section Runs
variable {layout : PayloadLayout}

inductive Encoding where
  | derived
  | fixed

def Encoding.kind (layout : PayloadLayout) : Encoding → FragmentKind layout
  | derived => derivedKind layout
  | fixed => fixedKind layout

inductive DecodePart where
  | contents
  | attributes
  | metadata
  | full

def FragmentKind.decode (kind : FragmentKind layout) : DecodePart → kind.State → Read (kind.State × Bool)
  | .contents => kind.contents
  | .attributes => kind.attributes
  | .metadata => kind.metadata
  | .full => kind.full

-- States of one layout, each in a slot of its own.
abbrev Payloads (layout : PayloadLayout) := Nat → layout.Fields

-- A merge of two slots that are one is a merge of one object with itself. Bytes are
-- decoded into a state with any header.
inductive PayloadAction (layout : PayloadLayout) where
  | call (slot : Nat) (i : Fin layout.count) (change : FieldCall (layout.field i).Value)
  | mergeField (merged old new : Nat) (i : Fin layout.count) (seq : SequenceNumber) (inherit_status : Bool)
  | mergeState (merged old new : Nat) (seq : SequenceNumber) (inherit_status : Bool)
  | clone (copy original : Nat)
  | decode (encoding : Encoding) (slot : Nat) (header : (encoding.kind layout).Header) (part : DecodePart) (bytes : Bytes)

def mergedField (store : Payloads layout) (merged old new : Nat) (i : Fin layout.count) (seq : SequenceNumber)
    (inherit_status : Bool) : PolicyHandler (layout.field i).Value :=
  ((store merged i).mergeAndUpdateSequence (store old i) (store new i) (decide (old = new)) seq inherit_status).1

-- A state whose bytes do not decode is dropped.
def payloadStep (store : Payloads layout) : PayloadAction layout → Payloads layout
  | .call slot i change => Function.update store slot (Function.update (store slot) i ((layout.field i).call (store slot i) change))
  | .mergeField merged old new i seq inherit_status =>
    Function.update store merged (Function.update (store merged) i (mergedField store merged old new i seq inherit_status))
  | .mergeState merged old new seq inherit_status =>
    Function.update store merged (@Serialize.ReplicatedState.mergeFields layout.toFragment.toSchema (store old) (store new)
      seq inherit_status).1
  | .clone copy original => Function.update store copy (store original)
  | .decode encoding slot header part bytes =>
    match (encoding.kind layout).decode part ((encoding.kind layout).make header (store slot)) bytes with
    | .ok (done,_) => Function.update store slot ((encoding.kind layout).fields done.1)
    | .error _ => store

def freshPayloads (layout : PayloadLayout) : Payloads layout := fun _ i => (layout.field i).initialHandler

-- A sequence in the metadata that counts as valid is that of a field with a value.
def StampsHeld (fields : layout.Fields) (order : List (Fin layout.count)) (bytes : Bytes) : Prop :=
  ∀ sequences rest, Reader.times SequenceNumber.unmarshal order.length bytes = .ok (sequences,rest) →
    ∀ stamped ∈ order.zip sequences, stamped.2.isValid = true → (fields stamped.1).value.isSome = true

-- Bytes that are refused ask for nothing. The metadata of a whole state comes after
-- its contents and its attributes.
def FragmentKind.Admits (kind : FragmentKind layout) (state : kind.State) (bytes : Bytes) (part : DecodePart) : Prop :=
  ∀ done rest, kind.decode part state bytes = .ok (done,rest) →
    match part with
    | .metadata => StampsHeld (kind.fields state) kind.order bytes
    | .full => ∀ read left attributed remaining, kind.contents state bytes = .ok (read,left) →
        kind.attributes read.1 left = .ok (attributed,remaining) →
        StampsHeld (kind.fields attributed.1) kind.order remaining
    | _ => True

-- The actions that leave no field without a value counting as modified. A merge of
-- an object with itself copies the value of a field that is at its default, and
-- keeps the sequence of the field it copies to.
def payloadAdmits (store : Payloads layout) : PayloadAction layout → Prop
  | .call slot i change => (layout.field i).Admits (store slot i) change
  | .mergeField merged old new i _ _ => old = new → (store new i).lastModified.isValid = false →
      (store new i).defaultValue.isSome = true → (store merged i).lastModified.isValid = true →
      (store new i).value.isSome = true
  | .decode encoding slot header part bytes =>
      (encoding.kind layout).Admits ((encoding.kind layout).make header (store slot)) bytes part
  | _ => True

def AllValued (store : Payloads layout) : Prop := ∀ slot i, (store slot i).Valued

theorem stamps_valued_iff {kind : FragmentKind layout} {state : kind.State} {done : kind.State × Bool}
    (valued : ∀ i, (kind.fields state i).Valued)
    (ran : kind.metadata state bytes = .ok (done,rest)) :
    (∀ i, (kind.fields done.1 i).Valued) ↔ StampsHeld (kind.fields state) kind.order bytes := by
  obtain ⟨sequences,left,reads,count,same⟩ := kind.metadataStamps ran
  have distinct : ((kind.order.zip sequences).map Prod.fst).Nodup := by
    rw [List.map_fst_zip (Nat.le_of_eq count.symm)]
    exact kind.distinct
  rw [same]
  constructor
  · intro after others remaining again stamped present valid
    rw [reads] at again
    cases again
    have held := after stamped.1
    unfold PolicyHandler.Valued ReplicatedFieldHandler.Valued at held
    rw [stampAll_sequence distinct present,stampAll_value] at held
    exact held valid
  · intro held i valid
    rw [stampAll_value]
    by_cases stamped : ∃ found ∈ kind.order.zip sequences, found.1 = i
    · obtain ⟨found,present,rfl⟩ := stamped
      rw [stampAll_sequence distinct present] at valid
      exact held sequences left reads found present valid
    · rw [stampAll_other fun found present same => stamped ⟨found,present,same⟩] at valid
      exact valued i valid

theorem contents_valued {kind : FragmentKind layout} {state : kind.State} {done : kind.State × Bool}
    (valued : ∀ i, (kind.fields state i).Valued)
    (ran : kind.contents state bytes = .ok (done,rest)) (i : Fin layout.count) : (kind.fields done.1 i).Valued := by
  rcases kind.contentsArrive ran i with same | ⟨own,left,read⟩
  · rw [same]
    exact valued i
  · exact (layout.field i).unmarshal_valued read

theorem attributes_valued {kind : FragmentKind layout} {state : kind.State} {done : kind.State × Bool}
    (valued : ∀ i, (kind.fields state i).Valued)
    (ran : kind.attributes state bytes = .ok (done,rest)) (i : Fin layout.count) : (kind.fields done.1 i).Valued := by
  rcases kind.attributesDefault ran i with same | default
  · rw [same]
    exact valued i
  · rw [default]
    exact fun _ => rfl

theorem decode_valued_iff {kind : FragmentKind layout} {state : kind.State} {done : kind.State × Bool} {part : DecodePart}
    (valued : ∀ i, (kind.fields state i).Valued) (ran : kind.decode part state bytes = .ok (done,rest)) :
    (∀ i, (kind.fields done.1 i).Valued) ↔ kind.Admits state bytes part := by
  cases part with
  | contents => exact ⟨fun _ _ _ _ => trivial,fun _ => contents_valued valued ran⟩
  | attributes => exact ⟨fun _ _ _ _ => trivial,fun _ => attributes_valued valued ran⟩
  | metadata =>
    refine (stamps_valued_iff valued ran).trans ⟨fun held _ _ _ => held,fun admits => admits done rest ran⟩
  | full =>
    obtain ⟨read,left,attributed,remaining,stamped,first,second,third,same⟩ := kind.fullSteps ran
    have before := attributes_valued (contents_valued valued first) second
    rw [same,stamps_valued_iff before third]
    constructor
    · intro held _ _ _ read' left' attributed' remaining' first' second'
      rw [first] at first'
      cases first'
      rw [second] at second'
      cases second'
      exact held
    · intro admits
      exact admits done rest ran read left attributed remaining first second

theorem call_valued_iff {plain : PolicyField} {field : PolicyHandler plain.Value} (valued : field.Valued)
    (change : FieldCall plain.Value) : (plain.call field change).Valued ↔ plain.Admits field change := by
  refine ⟨fun after => ?_,plain.call_valued valued change⟩
  cases change with
  | setLastModified seq => exact after
  | _ => trivial

theorem mergedField_valued_iff {store : Payloads layout} (valued : AllValued store) (merged old new : Nat) (i : Fin layout.count)
    (seq : SequenceNumber) (inherit_status : Bool) :
    (mergedField store merged old new i seq inherit_status).Valued ↔
      payloadAdmits store (.mergeField merged old new i seq inherit_status) := by
  unfold mergedField payloadAdmits
  by_cases same : old = new
  · subst same
    rw [decide_eq_true rfl]
    unfold PolicyHandler.mergeAndUpdateSequence
    rw [if_pos rfl]
    cases modified : (store old i).lastModified.isValid with
    | true =>
      rw [if_pos rfl]
      exact iff_of_true (fun _ => valued old i modified) (fun _ invalid => absurd modified (Bool.eq_false_iff.mp invalid))
    | false =>
      rw [if_neg Bool.false_ne_true]
      cases defaulted : (store old i).defaultValue.isSome with
      | true =>
        rw [if_pos rfl]
        exact ⟨fun after _ _ _ valid => after valid,fun held valid => held rfl modified defaulted valid⟩
      | false =>
        rw [if_neg Bool.false_ne_true]
        exact iff_of_true (valued merged i) (fun _ _ present => absurd (defaulted.symm.trans present) Bool.false_ne_true)
  · rw [decide_eq_false same]
    exact iff_of_true (PolicyHandler.merge_valued (valued old i) (valued new i) seq inherit_status)
      (fun equal => absurd equal same)

theorem update_valued_iff {store : Payloads layout} (valued : AllValued store) (slot : Nat) (fields : layout.Fields) :
    AllValued (Function.update store slot fields) ↔ ∀ i, (fields i).Valued := by
  constructor
  · intro all i
    have here := all slot i
    rw [Function.update_self] at here
    exact here
  · intro held other i
    by_cases same : other = slot
    · subst same
      rw [Function.update_self]
      exact held i
    · rw [Function.update_of_ne same]
      exact valued other i

theorem set_valued_iff {fields : layout.Fields} (valued : ∀ i, (fields i).Valued) (i : Fin layout.count)
    (field : PolicyHandler (layout.field i).Value) : (∀ j, (Function.update fields i field j).Valued) ↔ field.Valued := by
  constructor
  · intro all
    have here := all i
    rw [Function.update_self] at here
    exact here
  · intro held j
    by_cases same : j = i
    · subst same
      rw [Function.update_self]
      exact held
    · rw [Function.update_of_ne same]
      exact valued j

theorem payloadStep_iff {store : Payloads layout} (valued : AllValued store) (action : PayloadAction layout) :
    AllValued (payloadStep store action) ↔ payloadAdmits store action := by
  cases action with
  | call slot i change =>
    refine (update_valued_iff valued slot _).trans ((set_valued_iff (valued slot) i _).trans ?_)
    exact call_valued_iff (valued slot i) change
  | mergeField merged old new i seq inherit_status =>
    refine (update_valued_iff valued merged _).trans ((set_valued_iff (valued merged) i _).trans ?_)
    exact mergedField_valued_iff valued merged old new i seq inherit_status
  | mergeState merged old new seq inherit_status =>
    refine (update_valued_iff valued merged _).trans (iff_of_true (fun i => ?_) trivial)
    exact PolicyHandler.merge_valued (valued old i) (valued new i) seq inherit_status
  | clone copy original =>
    exact (update_valued_iff valued copy _).trans (iff_of_true (valued original) trivial)
  | decode encoding slot header part bytes =>
    have before : ∀ i, ((encoding.kind layout).fields ((encoding.kind layout).make header (store slot)) i).Valued := by
      rw [(encoding.kind layout).made]
      exact valued slot
    unfold payloadStep payloadAdmits
    dsimp only
    cases ran : (encoding.kind layout).decode part ((encoding.kind layout).make header (store slot)) bytes with
    | error error =>
      apply iff_of_true valued
      intro done rest accepted
      rw [ran] at accepted
      cases accepted
    | ok pair => exact (update_valued_iff valued slot _).trans (decode_valued_iff before ran)

-- Every field that is dirty has a value, and what the derived code or the
-- hand-written one writes of the state is read back, with the values that were sent.
structure Decodable (fields : layout.Fields) : Prop where
  held : ∀ i baseline, (fields i).isDirtySince baseline = true → (fields i).value.isSome = true
  derived : ∀ (hub : ReplicatedState) (mc : MarshalContext) (bytes : Bytes),
    (⟨hub,fields⟩ : DerivedFragment layout.toFragment).marshalContentsWith mc = some bytes →
    ∃ decoded : layout.Fields,
      (∀ rest, (DerivedFragment.fresh layout.toFragment).unmarshalContents (bytes ++ rest) = .ok ((⟨.new,decoded⟩,true),rest)) ∧
      ∀ i, if (⟨hub,fields⟩ : DerivedFragment layout.toFragment).fieldSent mc i then (decoded i).value = (fields i).value
        else decoded i = (layout.field i).initialHandler
  fixed : (∀ group_idx < layout.nGroups, (layout.toFragment.toSchema.fieldsOf group_idx).length ≤ 64) →
    ∀ (groups : Fin layout.nGroups → FieldGroupState layout.clientWhitelistSize) (mc : MarshalContext) (bytes : Bytes),
    (⟨groups,fields⟩ : FixedFragment layout.toFixed).marshalFixedContents mc = some bytes →
    ∃ decoded : layout.Fields,
      (∀ rest, (FixedFragment.fresh layout.toFixed).unmarshalFixedContents (bytes ++ rest) =
        .ok ((⟨(FixedFragment.fresh layout.toFixed).groups,decoded⟩,true),rest)) ∧
      ∀ i, if (⟨groups,fields⟩ : FixedFragment layout.toFixed).fieldSent mc i then (decoded i).value = (fields i).value
        else decoded i = (layout.field i).initialHandler

theorem derived_decodable {fields : layout.Fields}
    (held : ∀ i baseline, (fields i).isDirtySince baseline = true → (fields i).value.isSome = true)
    (hub : ReplicatedState) (mc : MarshalContext) (bytes : Bytes)
    (wrote : (⟨hub,fields⟩ : DerivedFragment layout.toFragment).marshalContentsWith mc = some bytes) :
    ∃ decoded : layout.Fields,
      (∀ rest, (DerivedFragment.fresh layout.toFragment).unmarshalContents (bytes ++ rest) = .ok ((⟨.new,decoded⟩,true),rest)) ∧
      ∀ i, if (⟨hub,fields⟩ : DerivedFragment layout.toFragment).fieldSent mc i then (decoded i).value = (fields i).value
        else decoded i = (layout.field i).initialHandler := by
  let fragment : DerivedFragment layout.toFragment := ⟨hub,fields⟩
  let observe : ∀ i, Observation (layout.toFragment.type i) := fun i => (layout.field i).observation
  have valued : ∀ i, fragment.fieldDirty mc i = true → (observe i).HasValue (fragment.fields i) :=
    fun i dirty => held i ((fragment.context mc).baselineFor (layout.group i)) dirty
  exact DerivedFragment.derived_contents_round_trip observe fragment mc valued bytes wrote

theorem fixed_decodable {fields : layout.Fields}
    (held : ∀ i baseline, (fields i).isDirtySince baseline = true → (fields i).value.isSome = true)
    (small : ∀ group_idx < layout.nGroups, (layout.toFragment.toSchema.fieldsOf group_idx).length ≤ 64)
    (groups : Fin layout.nGroups → FieldGroupState layout.clientWhitelistSize) (mc : MarshalContext) (bytes : Bytes)
    (wrote : (⟨groups,fields⟩ : FixedFragment layout.toFixed).marshalFixedContents mc = some bytes) :
    ∃ decoded : layout.Fields,
      (∀ rest, (FixedFragment.fresh layout.toFixed).unmarshalFixedContents (bytes ++ rest) =
        .ok ((⟨(FixedFragment.fresh layout.toFixed).groups,decoded⟩,true),rest)) ∧
      ∀ i, if (⟨groups,fields⟩ : FixedFragment layout.toFixed).fieldSent mc i then (decoded i).value = (fields i).value
        else decoded i = (layout.field i).initialHandler := by
  let fragment : FixedFragment layout.toFixed := ⟨groups,fields⟩
  let observe : ∀ i, Observation (layout.toFragment.type i) := fun i => (layout.field i).observation
  have valued : ∀ i, fragment.fieldDirty mc i = true → (observe i).HasValue (fragment.fields i) :=
    fun i dirty => held i ((fragment.context mc).baselineFor (layout.group i)) dirty
  exact FixedFragment.fixed_contents_round_trip observe fragment mc small valued bytes wrote

theorem decodable_iff {fields : layout.Fields} : Decodable fields ↔ ∀ i, (fields i).Valued := by
  constructor
  · intro decodable i valid
    apply decodable.held i .invalid
    unfold ReplicatedFieldHandler.isDirtySince
    rw [valid,Bool.true_and]
    exact SequenceNumber.invalid_below valid
  · intro valued
    have held : ∀ i baseline, (fields i).isDirtySince baseline = true → (fields i).value.isSome = true :=
      fun i baseline dirty => valued i (Bool.and_eq_true_iff.mp dirty).1
    exact ⟨held,derived_decodable held,fixed_decodable held⟩

-- In a run every state stays decodable exactly if none of its actions makes a field
-- without a value count as modified.
theorem run_decodable_iff (layout : PayloadLayout) (actions : List (PayloadAction layout)) :
    (∀ store, Reached payloadStep (freshPayloads layout) actions store → ∀ slot, Decodable (store slot)) ↔
      EachAction payloadStep (freshPayloads layout) actions payloadAdmits := by
  refine reached_iff (fun valued admitted => (payloadStep_iff valued _).mpr admitted) ?_ ?_ ?_
  · intro store valued slot
    exact decodable_iff.mpr (valued slot)
  · intro store action valued refused all
    exact refused ((payloadStep_iff valued action).mp fun slot => decodable_iff.mp (all slot))
  · exact fun _ i => (layout.field i).initialHandler_valued

end Runs

section Hidden

def bytePayload : PolicyField := ⟨UInt8,inferInstance,inferInstance,⟨writeU8,readU8,u8_back⟩,none,none⟩

def hiddenLayout : PayloadLayout := ⟨2,fun _ => bytePayload,fun i => i.val,2,1,by decide⟩

theorem hidden_targets_held : (some [(⟨1,1⟩ : FilterValue)]).isSome = true := rfl

-- Group 1 is hidden from client 7, which has its sequences in the metadata all the
-- same.
def hiddenSender : DerivedFragment hiddenLayout.toFragment where
  hub := ⟨[.default,{ReplicatedFilterGroup.default with
    explicitClientTargets := ⟨some [⟨1,1⟩],.validNonSequence,none,false⟩
    targetsHeld := hidden_targets_held}],by decide⟩
  fields i := (⟨⟨some (if i.val = 0 then 3 else 5),.seq 4,none,false⟩,none⟩ : PolicyHandler UInt8)

def hiddenSnapshot : Bytes := [1,1,3,0,1,4,1,4,1,0,1,0,1,0,1,0]

example : hiddenSender.fullMarshal ⟨.seq 1,some 7,none⟩ = some hiddenSnapshot := by decide

theorem hidden_field_without_value : ¬∀ (layout : PayloadLayout) (actions : List (PayloadAction layout)) (store : Payloads layout),
    Reached payloadStep (freshPayloads layout) actions store → ∀ slot, Decodable (store slot) := by
  intro all
  let snapshot : PayloadAction hiddenLayout := .decode .derived 0 ReplicatedState.new .full hiddenSnapshot
  let hidden : Fin hiddenLayout.count := ⟨1,by decide⟩
  have arrived : Reached payloadStep (freshPayloads hiddenLayout) [snapshot] (payloadStep (freshPayloads hiddenLayout) snapshot) :=
    ⟨[snapshot],[],rfl,rfl⟩
  have dirty : (payloadStep (freshPayloads hiddenLayout) snapshot 0 hidden).isDirtySince .invalid = true := by decide
  have empty : (payloadStep (freshPayloads hiddenLayout) snapshot 0 hidden).value.isSome = false := by decide
  have held := (all hiddenLayout [snapshot] _ arrived 0).held hidden .invalid dirty
  rw [empty] at held
  cases held

end Hidden

end NwNetwork.Hub
