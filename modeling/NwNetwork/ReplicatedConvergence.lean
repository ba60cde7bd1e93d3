import NwNetwork.ReplicatedField
import NwNetwork.ReplicatedContentsRoundTrip

namespace NwNetwork.Serialize
open WireReader Hub ReplicatedFieldHandler

-- A plain field of a derived state, with the default that the state's `Default`
-- gives it, if any.
structure PlainField where
  Value : Type
  equality : DecidableEq Value
  inhabited : Inhabited Value
  codec : Codec MarshalerError Value
  initial : Option Value

attribute [instance] PlainField.equality PlainField.inhabited

namespace PlainField
variable (plain : PlainField)

def initialHandler : ReplicatedFieldHandler plain.Value :=
  match plain.initial with
  | some default => empty.setDefaultValue default
  | none => empty

theorem initialHandler_valued : plain.initialHandler.Valued := by
  unfold initialHandler
  split
  · exact setDefaultValue_valued empty_valued _
  · exact empty_valued

def toFieldType : FieldType where
  Handler := {field : ReplicatedFieldHandler plain.Value // field.Valued}
  initial := ⟨plain.initialHandler,plain.initialHandler_valued⟩
  isDirty field baseline := field.1.isDirtySince baseline
  marshal field := field.1.marshal plain.codec
  unmarshal := do
    let value ← plain.codec.read
    pure ⟨received value,received_valued value⟩
  mergeAndUpdateSequence field old_value new_value seq inherit_status :=
    (⟨(field.1.mergeAndUpdateSequence old_value.1 new_value.1 false seq inherit_status).1,
        merge_valued old_value.2 new_value.2 inherit_status⟩,new_value,
      (field.1.mergeAndUpdateSequence old_value.1 new_value.1 false seq inherit_status).2)
  lastModified field := field.1.lastModified
  hasNewNetworkData field := field.1.hasNewNetworkData

end PlainField

structure PlainSchema where
  count : Nat
  field : Fin count → PlainField
  group : Fin count → Nat

def PlainSchema.toSchema (plain : PlainSchema) : Schema := ⟨plain.count,fun i => (plain.field i).toFieldType,plain.group⟩

abbrev PlainState (plain : PlainSchema) := ReplicatedState plain.toSchema

structure FieldChange (plain : PlainSchema) where
  index : Fin plain.count
  edit : FieldEdit (plain.field index).Value

-- A state is edited locally, from whichever state it starts, and then merged.
structure MergeStep (plain : PlainSchema) where
  base : PlainState plain
  changes : List (FieldChange plain)
  seq : SequenceNumber
  inherit_status : Bool

namespace PlainState
variable {plain : PlainSchema}

def field (state : PlainState plain) (i : Fin plain.count) : ReplicatedFieldHandler (plain.field i).Value := (state i).1

def effective (state : PlainState plain) (i : Fin plain.count) : (plain.field i).Value := (state.field i).effectiveValue

def change (state : PlainState plain) (change : FieldChange plain) : PlainState plain :=
  state.set change.index ⟨(state change.index).1.edit change.edit,edit_valued (state change.index).2 change.edit⟩

end PlainState

def MergeStep.newState (step : MergeStep plain) : PlainState plain := step.changes.foldl PlainState.change step.base

namespace PlainState
variable {plain : PlainSchema}

def mergeStep (merged : PlainState plain) (step : MergeStep plain) : PlainState plain :=
  (ReplicatedState.mergeFields merged step.newState step.seq step.inherit_status).1

def mergeAll (merged : PlainState plain) (steps : List (MergeStep plain)) : PlainState plain :=
  steps.foldl mergeStep merged

def mergedRun (steps : List (MergeStep plain)) : PlainState plain :=
  mergeAll (ReplicatedState.fresh plain.toSchema) steps

-- The receiver decodes what is marshaled into a fresh state and merges it.
def Converges (sender receiver : PlainState plain) (baseline seq : SequenceNumber) (inherit_status : Bool) : Prop :=
  match ReplicatedState.marshalFields (.plain baseline) sender with
  | none => ∀ i, receiver.effective i = sender.effective i
  | some bytes => ∃ decoded : PlainState plain,
      ReplicatedState.unmarshalFields (ReplicatedState.fresh plain.toSchema) bytes = .ok (decoded,[]) ∧
        ∀ i, effective (ReplicatedState.mergeFields receiver decoded seq inherit_status).1 i = sender.effective i

-- Since a baseline at which its value was the given one, the field has kept it
-- or counts as modified.
def UpToDate (merged : PlainState plain) (known : ∀ i, (plain.field i).Value) (baseline : SequenceNumber) : Prop :=
  ∀ i, merged.effective i = known i ∨ baseline.less (merged.field i).lastModified = true

section Runs
variable {merged sender receiver : PlainState plain} {known : ∀ i, (plain.field i).Value} {baseline : SequenceNumber}

theorem mergeStep_upToDate (current : merged.UpToDate known baseline) (step : MergeStep plain)
    (later : baseline.less step.seq = true) : (merged.mergeStep step).UpToDate known baseline := by
  intro i
  obtain ⟨_,stamped⟩ := merge_cases (plain.field i).initialHandler (merged.field i) (step.newState.field i) step.seq
    step.inherit_status
  rcases stamped with now | ⟨kept,stamp⟩
  · exact .inr (now.symm ▸ later)
  · rcases current i with equal | modified
    · exact .inl (kept.trans equal)
    · exact .inr ((stamp (SequenceNumber.less_valid modified)).symm ▸ modified)

theorem mergeAll_upToDate (current : merged.UpToDate known baseline) (steps : List (MergeStep plain))
    (later : ∀ step ∈ steps, baseline.less step.seq = true) : (merged.mergeAll steps).UpToDate known baseline := by
  induction steps generalizing merged with
  | nil => exact current
  | cons step steps ih =>
    exact ih (mergeStep_upToDate current step (later step List.mem_cons_self))
      (fun next member => later next (List.mem_cons_of_mem _ member))

theorem mergedRun_upToDate {before after : List (MergeStep plain)} {current : MergeStep plain}
    (increasing : ((before ++ current :: after).map MergeStep.seq).Pairwise fun earlier later => earlier.less later = true)
    (agrees : ∀ i, receiver.effective i = (mergedRun (before ++ [current])).effective i) :
    (mergedRun (before ++ current :: after)).UpToDate receiver.effective current.seq := by
  have later : ∀ step ∈ after, current.seq.less step.seq = true := by
    rw [List.map_append,List.pairwise_append,List.map_cons,List.pairwise_cons] at increasing
    intro step member
    exact increasing.2.1.1 _ (List.mem_map_of_mem member)
  have split : mergedRun (before ++ current :: after) = mergeAll (mergedRun (before ++ [current])) after := by
    unfold mergedRun mergeAll
    rw [← List.foldl_append,List.append_assoc]
    rfl
  rw [split]
  exact mergeAll_upToDate (fun i => .inl (agrees i).symm) after later

-- What a receiver makes of a field that was sent, and of one that was not.
theorem merge_sent (receiver : PlainState plain) (i : Fin plain.count) (value : (plain.field i).Value) :
    ((plain.field i).initialHandler.mergeAndUpdateSequence (receiver.field i) (received value) false seq
      inherit_status).1.effectiveValue = value :=
  (merge_cases (plain.field i).initialHandler (receiver.field i) (received value) seq inherit_status).1

theorem merge_absent (receiver : PlainState plain) (i : Fin plain.count) :
    ((plain.field i).initialHandler.mergeAndUpdateSequence (receiver.field i) (plain.field i).initialHandler false seq
      inherit_status).1.effectiveValue = (plain.field i).initial.getD (receiver.effective i) := by
  rw [(merge_cases _ _ _ seq inherit_status).1]
  unfold PlainField.initialHandler
  cases (plain.field i).initial with
  | none => rfl
  | some default => simp [setDefaultValue,empty,isDefaultValue,effectiveValue]

theorem sent_back (sender : PlainState plain) (i : Fin plain.count)
    (dirty : (sender.field i).isDirtySince baseline = true) :
    (plain.toSchema.type i).ReadsAs (sender i) ⟨received (sender.effective i),received_valued _⟩ := by
  intro rest
  unfold isDirtySince at dirty
  rw [Bool.and_eq_true] at dirty
  obtain ⟨value,held⟩ := Option.isSome_iff_exists.mp ((sender i).2 dirty.1)
  have content : sender.effective i = value := by
    simp [effective,field,effectiveValue,held]
  have written : (plain.toSchema.type i).marshal (sender i) = (plain.field i).codec.write value := by
    change (sender i).1.marshal (plain.field i).codec = _
    rw [marshal,held]
  rw [written,content]
  exact Reader.bind_ok ((plain.field i).codec.readsBack value rest)

-- What a receiver decodes from the contents since a baseline.
def arriving (sender : PlainState plain) (baseline : SequenceNumber) : PlainState plain := fun i =>
  if (sender.field i).isDirtySince baseline then ⟨received (sender.effective i),received_valued _⟩
  else (plain.toSchema.type i).initial

theorem unmarshal_arriving (wrote : ReplicatedState.marshalFields (.plain baseline) sender = some bytes) :
    ReplicatedState.unmarshalFields (ReplicatedState.fresh plain.toSchema) bytes = .ok (sender.arriving baseline,[]) := by
  have back : ∀ i, ReplicatedState.fieldSent (.plain baseline) sender i = true →
      (plain.toSchema.type i).ReadsAs (sender i) ⟨received (sender.effective i),received_valued _⟩ :=
    fun i sent => sent_back sender i ((ReplicatedState.fieldSent_plain sender baseline i).symm.trans sent)
  have reads := ReplicatedState.contents_reads back wrote (ReplicatedState.fresh plain.toSchema) []
  rw [List.append_nil] at reads
  rw [reads]
  congr 2
  funext i
  rw [ReplicatedState.fieldSent_plain]
  rfl

theorem merge_arriving (sender receiver : PlainState plain) (baseline : SequenceNumber) (i : Fin plain.count) :
    effective (ReplicatedState.mergeFields receiver (sender.arriving baseline) seq inherit_status).1 i =
      if (sender.field i).isDirtySince baseline then sender.effective i
      else (plain.field i).initial.getD (receiver.effective i) := by
  cases dirty : (sender.field i).isDirtySince baseline with
  | true =>
    have arrived : sender.arriving baseline i = ⟨received (sender.effective i),received_valued _⟩ := if_pos dirty
    rw [if_pos rfl,← merge_sent receiver i (sender.effective i)]
    unfold effective field ReplicatedState.mergeFields
    dsimp only
    rw [arrived]
    rfl
  | false =>
    have absent : sender.arriving baseline i = (plain.toSchema.type i).initial := if_neg (Bool.eq_false_iff.mp dirty)
    rw [if_neg Bool.false_ne_true,← merge_absent receiver i]
    unfold effective field ReplicatedState.mergeFields
    dsimp only
    rw [absent]
    rfl

theorem converges_iff (current : sender.UpToDate receiver.effective baseline) (seq : SequenceNumber)
    (inherit_status : Bool) :
    sender.Converges receiver baseline seq inherit_status ↔
      (∀ i, (sender.field i).isDirtySince baseline = false) ∨
        ∀ i, (sender.field i).isDirtySince baseline = false →
          ∀ default ∈ (plain.field i).initial, default = sender.effective i := by
  have unchanged : ∀ i, (sender.field i).isDirtySince baseline = false → receiver.effective i = sender.effective i := by
    intro i clean
    rcases current i with same | modified
    · exact same.symm
    · rw [less_dirty modified] at clean
      cases clean
  have sent : ∀ i, sender.fieldSent (.plain baseline) i = (sender.field i).isDirtySince baseline :=
    fun i => ReplicatedState.fieldSent_plain sender baseline i
  unfold Converges
  cases wrote : ReplicatedState.marshalFields (.plain baseline) sender with
  | none =>
    have clean := ReplicatedState.marshalFields_none.mp wrote
    have quiet : ∀ i, (sender.field i).isDirtySince baseline = false := fun i => (sent i).symm.trans (clean i)
    exact ⟨fun _ => .inl quiet,fun _ i => unchanged i (quiet i)⟩
  | some bytes =>
    have some_dirty : ¬∀ i, (sender.field i).isDirtySince baseline = false := by
      intro quiet
      have silent := ReplicatedState.marshalFields_none.mpr (fun i => (sent i).trans (quiet i))
      rw [wrote] at silent
      cases silent
    have reads := unmarshal_arriving wrote
    constructor
    · rintro ⟨decoded,ran,equal⟩
      rw [reads] at ran
      cases ran
      refine .inr fun i clean default initial => ?_
      have merged := equal i
      rw [merge_arriving,if_neg (Bool.eq_false_iff.mp clean),initial] at merged
      exact merged
    · rintro (quiet | defaults)
      · exact absurd quiet some_dirty
      · refine ⟨_,reads,fun i => ?_⟩
        rw [merge_arriving]
        cases clean : (sender.field i).isDirtySince baseline with
        | true => rfl
        | false =>
          rw [if_neg Bool.false_ne_true]
          cases initial : (plain.field i).initial with
          | none => exact unchanged i clean
          | some default => exact defaults i clean default initial

-- A receiver that has the values as of some merge gets those of the last one,
-- unless a field that is not sent has a default other than its value.
theorem delta_convergence (before : List (MergeStep plain)) (current : MergeStep plain) (after : List (MergeStep plain))
    (receiver : PlainState plain) (seq : SequenceNumber) (inherit_status : Bool)
    (increasing : ((before ++ current :: after).map MergeStep.seq).Pairwise fun earlier later => earlier.less later = true)
    (agrees : ∀ i, receiver.effective i = (mergedRun (before ++ [current])).effective i) :
    (mergedRun (before ++ current :: after)).Converges receiver current.seq seq inherit_status ↔
      (∀ i, ((mergedRun (before ++ current :: after)).field i).isDirtySince current.seq = false) ∨
        ∀ i, ((mergedRun (before ++ current :: after)).field i).isDirtySince current.seq = false →
          ∀ default ∈ (plain.field i).initial, default = (mergedRun (before ++ current :: after)).effective i := by
  exact converges_iff (mergedRun_upToDate increasing agrees) seq inherit_status

end Runs

section Player

def byteField (initial : Option UInt8) : PlainField := ⟨UInt8,inferInstance,inferInstance,⟨writeU8,readU8,u8_back⟩,initial⟩

-- The player's type has a default, the other field has none.
def playerSchema : PlainSchema := ⟨2,fun i => byteField (if i = 0 then some 0 else none),fun _ => 0⟩

def setPlayer (index : Fin 2) (value : UInt8) : FieldChange playerSchema := ⟨index,.setValue value⟩

def mergeAt (seq : BitVec 64) (changes : List (FieldChange playerSchema)) : MergeStep playerSchema :=
  ⟨ReplicatedState.fresh _,changes,.seq seq,false⟩

def firstMerge : MergeStep playerSchema := mergeAt 1 [setPlayer 0 5,setPlayer 1 1]

def secondMerge : MergeStep playerSchema := ⟨mergedRun [firstMerge],[setPlayer 1 2],.seq 2,false⟩

theorem delta_convergence_default :
    (mergedRun [mergeAt 1 [setPlayer 1 1],mergeAt 2 [setPlayer 1 2]]).Converges (mergedRun [mergeAt 1 [setPlayer 1 1]])
      (.seq 1) (.seq 9) true :=
  (delta_convergence [] (mergeAt 1 [setPlayer 1 1]) [mergeAt 2 [setPlayer 1 2]] _ (.seq 9) true (by decide)
    (fun _ => rfl)).mpr (.inr (by decide))

-- The player's type is 5 on both sides and only the other field is sent: the
-- receiver's type becomes the default.
theorem unsent_default_overwrites :
    ¬∀ (plain : PlainSchema) (before after : List (MergeStep plain)) (current : MergeStep plain)
      (receiver : PlainState plain) (seq : SequenceNumber) (inherit_status : Bool),
      (∀ step ∈ before ++ current :: after, step.seq.IsReal) →
      ((before ++ current :: after).map MergeStep.seq).Pairwise (fun earlier later => earlier.less later = true) →
      (∀ i, receiver.effective i = (mergedRun (before ++ [current])).effective i) →
      (mergedRun (before ++ current :: after)).Converges receiver current.seq seq inherit_status := by
  intro converges
  have real : ∀ step ∈ [firstMerge,secondMerge], step.seq.IsReal := by
    intro step member
    rcases List.mem_pair.mp member with rfl | rfl
    · exact ⟨1,rfl,by decide,by decide⟩
    · exact ⟨2,rfl,by decide,by decide⟩
  have increasing : ([firstMerge,secondMerge].map MergeStep.seq).Pairwise
      fun earlier later => earlier.less later = true := by decide
  have merged := converges playerSchema [] [secondMerge] firstMerge (mergedRun [firstMerge]) (.seq 9) true real increasing
    (fun _ => rfl)
  rcases (converges_iff (mergedRun_upToDate increasing (fun _ => rfl)) (.seq 9) true).mp merged with quiet | defaults
  · exact absurd (quiet (1 : Fin 2)) (by decide)
  · have kept : (0 : UInt8) = 5 := defaults (0 : Fin 2) (by decide) (0 : UInt8) rfl
    exact absurd kept (by decide)

end Player
end PlainState
end NwNetwork.Serialize
