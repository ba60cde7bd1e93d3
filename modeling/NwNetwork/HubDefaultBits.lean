import NwNetwork.HubDerivedContents
import NwNetwork.HubFilterAttributes

namespace NwNetwork.Hub.DerivedFragment
open WireReader MaskedSlots Serialize ReplicatedFieldHandler

section Bits
variable {schema : FragmentSchema} {fragment : DerivedFragment schema} {mc : MarshalContext}

theorem calculateDefaultBits_at (fragment : DerivedFragment schema) (i : Fin schema.count) :
    fragment.calculateDefaultBits.filterGroups[schema.group i]? =
      ((fragment.hub.ensureFilterGroups (nGroups schema)).filterGroups[schema.group i]?).map
        (ReplicatedFilterGroup.setDefaultBits · (ReplicatedDefaultBits.ofFlags (fragment.defaultFlags (schema.group i)))) := by
  have untouched : ∀ (groups : List Nat) (hub : ReplicatedState), schema.group i ∉ groups →
      (groups.foldl (fun hub group_idx => hub.calculateDefaultBits group_idx (fragment.defaultFlags group_idx))
        hub).filterGroups[schema.group i]? = hub.filterGroups[schema.group i]? := by
    intro groups
    induction groups with
    | nil => intro hub _; rfl
    | cons group_idx groups ih =>
      intro hub absent
      rw [List.mem_cons,not_or] at absent
      rw [List.foldl_cons,ih _ absent.2]
      exact List.getElem?_modify_ne _ _ (Ne.symm absent.1)
  obtain ⟨before,after,split⟩ := List.append_of_mem (mem_groupsWithFields i)
  have distinct : (before ++ schema.group i :: after).Nodup := split ▸ groupsWithFields_nodup
  rw [List.nodup_middle,List.nodup_cons,List.mem_append,not_or] at distinct
  unfold calculateDefaultBits
  rw [split,List.foldl_append,List.foldl_cons,untouched after _ distinct.1.2]
  refine (List.getElem?_modify_eq _ _ _).trans ?_
  rw [untouched before _ distinct.1.1]
  rfl

-- The default bit of a field is sent only when there is no baseline: the bits
-- never have a sequence.
def bitSent (fragment : DerivedFragment schema) (baseline : SequenceNumber) (i : Fin schema.count) : Bool :=
  decide (schema.group i < maxFiltergroupsPerReplicatedState) && decide (fieldIndex schema i < maxFieldsPerReplicatedState) &&
    (!baseline.isValid && (schema.type i).isDefaultValue (fragment.fields i))

theorem less_validNonSequence (baseline : SequenceNumber) : baseline.less .validNonSequence = !baseline.isValid := by
  rw [Bool.eq_iff_iff,SequenceNumber.less_iff,Bool.not_eq_true']
  unfold SequenceNumber.rank
  cases baseline.isValid <;> simp [SequenceNumber.rawValue,SequenceNumber.validNonSequenceValue]

theorem default_flag (fragment : DerivedFragment schema) (i : Fin schema.count) :
    (fragment.defaultFlags (schema.group i)).getD (fieldIndex schema i) false =
      (schema.type i).isDefaultValue (fragment.fields i) := by
  have member : i ∈ schema.toSchema.fieldsOf (schema.group i) := Schema.mem_fieldsOf.mpr rfl
  have inside : fieldIndex schema i < (schema.toSchema.fieldsOf (schema.group i)).length := List.idxOf_lt_length_of_mem member
  have here : (schema.toSchema.fieldsOf (schema.group i))[fieldIndex schema i]? = some i :=
    List.getElem?_eq_some_iff.mpr ⟨inside,List.getElem_idxOf inside⟩
  unfold defaultFlags
  rw [List.getD_eq_getElem?_getD,List.getElem?_map,here]
  rfl

theorem fresh_groups (group_count : Nat) :
    (ReplicatedState.new.ensureFilterGroups (group_count + 1)).filterGroups =
      List.replicate (min (group_count + 1) maxFiltergroupsPerReplicatedState) .default := by
  have more : min (group_count + 1) maxFiltergroupsPerReplicatedState =
      (min (group_count + 1) maxFiltergroupsPerReplicatedState - 1) + 1 := by
    unfold maxFiltergroupsPerReplicatedState
    omega
  rw [more,List.replicate_succ]
  rfl

theorem header_bit (fragment : DerivedFragment schema) (baseline : SequenceNumber) (i : Fin schema.count)
    {received : ReplicatedState}
    (same : received.filterGroups = FilterGroups.receiveAll
      (FilterGroups.fieldMask baseline fragment.calculateDefaultBits.filterGroups) 0
      fragment.calculateDefaultBits.filterGroups (ReplicatedState.new.ensureFilterGroups (nGroups schema)).filterGroups)
    (length : received.filterGroups.length = min (nGroups schema) maxFiltergroupsPerReplicatedState) :
    bitOf schema received i = fragment.bitSent baseline i := by
  have below : schema.group i < nGroups schema := Nat.lt_succ_of_le (schema.toSchema.group_le i)
  unfold bitOf bitSent
  by_cases few : schema.group i < maxFiltergroupsPerReplicatedState
  · have ensured : schema.group i < (fragment.hub.ensureFilterGroups (nGroups schema)).filterGroups.length := by
      rw [ensureFilterGroups_length]
      omega
    have sends := calculateDefaultBits_at fragment i
    rw [List.getElem?_eq_getElem ensured,Option.map_some] at sends
    have receives : (ReplicatedState.new.ensureFilterGroups (nGroups schema)).filterGroups[schema.group i]? =
        some .default := by
      unfold nGroups
      rw [fresh_groups,List.getElem?_replicate]
      exact if_pos (by unfold nGroups at below; omega)
    have dirty := FilterGroups.fieldMask_bits baseline fragment.calculateDefaultBits.bounded sends
    rw [ReplicatedFilterGroup.setDefaultBits_dirty,less_validNonSequence] at dirty
    rw [same,FilterGroups.receiveAll_at _ 0 sends receives,Option.any_some,Nat.zero_add,ReplicatedFilterGroup.receive_bits,dirty,
      decide_eq_true few,Bool.true_and]
    cases baseline.isValid with
    | true =>
      have clear : ReplicatedDefaultBits.get 0 (fieldIndex schema i) = false := by
        simp [ReplicatedDefaultBits.get,hasBit]
      rw [Bool.not_true,if_neg Bool.false_ne_true,Bool.false_and,Bool.and_false]
      exact clear
    | false =>
      rw [Bool.not_false,if_pos rfl,Bool.true_and,ReplicatedFilterGroup.setDefaultBits_bits,ReplicatedDefaultBits.ofFlags_get,
        default_flag]
  · have absent : received.filterGroups[schema.group i]? = none := by
      rw [List.getElem?_eq_none_iff,length]
      omega
    rw [absent,decide_eq_false few]
    rfl

theorem fresh_length : (ReplicatedState.new.ensureFilterGroups (nGroups schema)).filterGroups.length =
    min (nGroups schema) maxFiltergroupsPerReplicatedState := by
  unfold nGroups
  rw [fresh_groups,List.length_replicate]

-- What a fresh header reads of the attributes. Those of groups beyond the
-- layout's stay unread.
theorem attributes_received (fragment : DerivedFragment schema) (fields : FragmentFields schema)
    (wrote : fragment.marshalAttributes mc = some attributes) :
    ∃ received read_any unread,
      (∀ rest, (⟨.new,fields⟩ : DerivedFragment schema).unmarshalAttributes (attributes ++ rest) =
        .ok ((⟨received,(groupsWithFields schema).foldl (applyDefaultBits received) fields⟩,read_any),unread ++ rest)) ∧
      received.filterGroups = FilterGroups.receiveAll
        (FilterGroups.fieldMask mc.baselineSeq fragment.calculateDefaultBits.filterGroups) 0
        fragment.calculateDefaultBits.filterGroups (ReplicatedState.new.ensureFilterGroups (nGroups schema)).filterGroups ∧
      (fragment.calculateDefaultBits.filterGroups.length = min (nGroups schema) maxFiltergroupsPerReplicatedState →
        unread = []) := by
  have some_group : 0 < (ReplicatedState.new.ensureFilterGroups (nGroups schema)).filterGroups.length := by
    rw [fresh_length]
    unfold nGroups maxFiltergroupsPerReplicatedState
    omega
  have fits : (ReplicatedState.new.ensureFilterGroups (nGroups schema)).filterGroups.length ≤
      fragment.calculateDefaultBits.filterGroups.length := by
    rw [fresh_length,calculateDefaultBits_length]
    exact Nat.le_max_right _ _
  obtain ⟨received,read_any,unread,reads,same,whole⟩ := ReplicatedState.filter_attributes_back some_group fits wrote
  rw [fresh_length] at whole
  exact ⟨received,read_any,unread,fun rest => Reader.bind_ok (reads rest),same,fun equal => whole equal.symm⟩

theorem attributes_arrive (fragment : DerivedFragment schema) (fields : FragmentFields schema)
    (wrote : fragment.marshalAttributes mc = some attributes) :
    ∃ arrived read_any unread,
      (⟨.new,fields⟩ : DerivedFragment schema).unmarshalAttributes attributes = .ok ((arrived,read_any),unread) ∧
      ∀ i, arrived.fields i = if fragment.bitSent mc.baselineSeq i then (schema.type i).setCurrentValueAsDefault (fields i)
        else fields i := by
  obtain ⟨received,read_any,unread,reads,same,_⟩ := attributes_received fragment fields wrote
  have length : received.filterGroups.length = min (nGroups schema) maxFiltergroupsPerReplicatedState := by
    rw [same,FilterGroups.receiveAll_length,fresh_length]
  have whole := reads []
  rw [List.append_nil] at whole
  refine ⟨_,_,_,whole,fun i => ?_⟩
  rw [← header_bit fragment mc.baselineSeq i same length]
  exact applyDefaultBits_all received fields i

end Bits

def plainContext (baseline : SequenceNumber) : MarshalContext := ⟨baseline,none,none⟩

-- The fresh instance that a receiver decodes contents and attributes into.
def arrival {schema : FragmentSchema} (sender : DerivedFragment schema) (mc : MarshalContext) : Option (DerivedFragment schema) := do
  let received ← match sender.marshalContentsWith mc with
    | some contents => ((fresh schema).unmarshalContents contents).toOption.map fun read => read.1.1
    | none => some (fresh schema)
  let attributes ← sender.marshalAttributes mc
  let read ← (received.unmarshalAttributes attributes).toOption
  some read.1.1

-- What may happen to the fields of a sender.
inductive LocalStep (plain : PlainSchema) where
  | setDefaultValue (index : Fin plain.count) (default : (plain.field index).Value)
  | change (change : FieldChange plain)
  | merge (step : MergeStep plain)

section Plain
variable {plain : PlainSchema}

def field (fields : FragmentFields plain.toFragment) (i : Fin plain.count) : ReplicatedFieldHandler (plain.field i).Value :=
  fields i

def effective (fields : FragmentFields plain.toFragment) (i : Fin plain.count) : (plain.field i).Value :=
  (field fields i).effectiveValue

def localStep (state : PlainState plain) : LocalStep plain → PlainState plain
  | .setDefaultValue index default =>
    state.set index ⟨(state.field index).setDefaultValue default,setDefaultValue_valued (state index).2 default⟩
  | .change change => state.change change
  | .merge step => state.mergeStep step

def history (steps : List (LocalStep plain)) : PlainState plain :=
  steps.foldl localStep (Serialize.ReplicatedState.fresh plain.toSchema)

def ofHistory (hub : ReplicatedState) (steps : List (LocalStep plain)) : DerivedFragment plain.toFragment :=
  ⟨hub,(history steps).field⟩

def Lossless (sender : DerivedFragment plain.toFragment) (receiver : FragmentFields plain.toFragment)
    (baseline seq : SequenceNumber) (inherit_status : Bool) : Prop :=
  ∃ arrived, sender.arrival (plainContext baseline) = some arrived ∧
    ∀ i, effective (Serialize.ReplicatedState.mergeFields receiver arrived.fields seq inherit_status).1 i =
      effective sender.fields i

def dirty (sender : DerivedFragment plain.toFragment) (baseline : SequenceNumber) (i : Fin plain.count) : Bool :=
  (field sender.fields i).isDirtySince baseline

-- A field that is not sent but comes out of the fresh instance with a value:
-- by its default bit, or by a default that the instance gives it.
def restored (sender : DerivedFragment plain.toFragment) (baseline : SequenceNumber) (i : Fin plain.count) : Bool :=
  sender.bitSent baseline i || (plain.field i).initial.isSome

def arriving (sender : DerivedFragment plain.toFragment) (baseline : SequenceNumber) (i : Fin plain.count) :
    ReplicatedFieldHandler (plain.field i).Value :=
  if sender.dirty baseline i then received (effective sender.fields i) else (plain.field i).initialHandler

theorem contents_arrive {sender : DerivedFragment plain.toFragment} (valued : ∀ i, (field sender.fields i).Valued)
    (wrote : sender.marshalContentsWith (plainContext baseline) = some contents) :
    (fresh plain.toFragment).unmarshalContents contents = .ok ((⟨.new,sender.arriving baseline⟩,true),[]) := by
  have sent : ∀ i : Fin plain.count, sender.fields.fieldSent (.plain baseline) i = sender.dirty baseline i :=
    Serialize.ReplicatedState.fieldSent_plain sender.fields baseline
  have back : ∀ i : Fin plain.count, sender.fields.fieldSent (.plain baseline) i = true →
      (plain.toFragment.toSchema.type i).ReadsAs (sender.fields i) (received (effective sender.fields i)) := by
    intro i sends rest
    rw [sent] at sends
    obtain ⟨value,held⟩ := Option.isSome_iff_exists.mp (valued i (Bool.and_eq_true_iff.mp sends).1)
    have content : effective sender.fields i = value := by
      unfold effective effectiveValue
      rw [held]
      rfl
    rw [content]
    exact (plain.field i).marshal_reads held rest
  have reads := Serialize.ReplicatedState.contents_reads back wrote (fresh plain.toFragment).fields []
  rw [List.append_nil] at reads
  have same : ∀ i : Fin plain.count, (if sender.fields.fieldSent (.plain baseline) i then received (effective sender.fields i)
      else (plain.field i).initialHandler) = sender.arriving baseline i := by
    intro i
    cases sends : sender.dirty baseline i with
    | true => exact (if_pos ((sent i).trans sends)).trans (if_pos sends).symm
    | false =>
      have unsent : ¬sender.fields.fieldSent (.plain baseline) i = true := Bool.eq_false_iff.mp ((sent i).trans sends)
      exact (if_neg unsent).trans (if_neg (Bool.eq_false_iff.mp sends)).symm
  let holding (fields : FragmentFields plain.toFragment) : DerivedFragment plain.toFragment := ⟨.new,fields⟩
  exact (Reader.bind_ok reads).trans (congrArg (fun fields => Except.ok ((holding fields,true),[])) (funext same))

theorem arrives {sender : DerivedFragment plain.toFragment} (valued : ∀ i, (field sender.fields i).Valued)
    (wrote : sender.marshalAttributes (plainContext baseline) = some attributes) :
    ∃ arrived, sender.arrival (plainContext baseline) = some arrived ∧
      ∀ i : Fin plain.count, field arrived.fields i =
        if sender.bitSent baseline i then (sender.arriving baseline i).setCurrentValueAsDefault
        else sender.arriving baseline i := by
  obtain ⟨arrived,read_any,unread,reads,fields⟩ := attributes_arrive sender (sender.arriving baseline) wrote
  refine ⟨arrived,?_,fields⟩
  unfold arrival
  cases contents : sender.marshalContentsWith (plainContext baseline) with
  | some contents =>
    dsimp only
    rw [contents_arrive valued contents,wrote]
    simp [reads]
  | none =>
    have clean : ∀ i : Fin plain.count, sender.dirty baseline i = false := by
      intro i
      have unsent := Serialize.ReplicatedState.marshalFields_none.mp contents i
      exact (Serialize.ReplicatedState.fieldSent_plain sender.fields baseline i).symm.trans unsent
    have same : (⟨.new,sender.arriving baseline⟩ : DerivedFragment plain.toFragment) = fresh plain.toFragment := by
      unfold arriving
      simp only [clean]
      rfl
    rw [same] at reads
    dsimp only
    rw [wrote]
    simp [reads]

theorem setCurrentValueAsDefault_restores {α : Type} [DecidableEq α] [Inhabited α] (field : ReplicatedFieldHandler α) :
    field.setCurrentValueAsDefault.isDefaultValue = true ∧
      field.setCurrentValueAsDefault.effectiveValue = field.effectiveValue := by
  constructor
  · unfold setCurrentValueAsDefault isDefaultValue
    simp
  · rfl

theorem initialHandler_merges (plain : PlainField) :
    (plain.initialHandler.isDefaultValue || plain.initialHandler.lastModified.isValid) = plain.initial.isSome := by
  unfold PlainField.initialHandler
  cases plain.initial with
  | none => rfl
  | some default => simp [ReplicatedFieldHandler.setDefaultValue,empty,isDefaultValue]

-- What the receiver has of each field in the end.
theorem merge_arrived {sender arrived : DerivedFragment plain.toFragment} {i : Fin plain.count}
    (fields : field arrived.fields i =
      if sender.bitSent baseline i then (sender.arriving baseline i).setCurrentValueAsDefault else sender.arriving baseline i)
    (receiver : FragmentFields plain.toFragment) (seq : SequenceNumber) (inherit_status : Bool) :
    effective (Serialize.ReplicatedState.mergeFields receiver arrived.fields seq inherit_status).1 i =
      if sender.dirty baseline i then effective sender.fields i
      else if sender.restored baseline i then (plain.field i).initialHandler.effectiveValue
      else effective receiver i := by
  have merged := (merge_cases (plain.field i).initialHandler (field receiver i) (field arrived.fields i) seq
    inherit_status).1
  refine Eq.trans merged ?_
  rw [fields]
  unfold restored arriving
  cases sender.bitSent baseline i with
  | true =>
    rw [if_pos rfl,(setCurrentValueAsDefault_restores _).1,(setCurrentValueAsDefault_restores _).2,Bool.true_or,if_pos rfl,
      Bool.true_or,if_pos rfl]
    cases sender.dirty baseline i <;> rfl
  | false =>
    rw [if_neg Bool.false_ne_true]
    cases sender.dirty baseline i with
    | true => rfl
    | false =>
      rw [if_neg Bool.false_ne_true,if_neg Bool.false_ne_true,initialHandler_merges,Bool.false_or]
      rfl

theorem lossless_iff {sender : DerivedFragment plain.toFragment} (valued : ∀ i, (field sender.fields i).Valued)
    (wrote : sender.marshalAttributes (plainContext baseline) = some attributes)
    (receiver : FragmentFields plain.toFragment) (seq : SequenceNumber) (inherit_status : Bool) :
    sender.Lossless receiver baseline seq inherit_status ↔
      ∀ i, sender.dirty baseline i = false →
        if sender.restored baseline i then (plain.field i).initialHandler.effectiveValue = effective sender.fields i
        else effective receiver i = effective sender.fields i := by
  obtain ⟨arrived,arrives,fields⟩ := arrives valued wrote
  constructor
  · rintro ⟨other,again,equal⟩ i clean
    rw [arrives] at again
    cases again
    have merged := equal i
    rw [merge_arrived (fields i),clean,if_neg Bool.false_ne_true] at merged
    split at merged
    · rename_i restores
      rw [if_pos restores]
      exact merged
    · rename_i untouched
      rw [if_neg untouched]
      exact merged
  · intro right
    refine ⟨arrived,arrives,fun i => ?_⟩
    rw [merge_arrived (fields i)]
    cases clean : sender.dirty baseline i with
    | true => rfl
    | false =>
      have here := right i clean
      rw [if_neg Bool.false_ne_true]
      split
      · rename_i restores
        rw [if_pos restores] at here
        exact here
      · rename_i untouched
        rw [if_neg untouched] at here
        exact here

theorem history_valued (hub : ReplicatedState) (steps : List (LocalStep plain)) (i : Fin plain.count) :
    (field (ofHistory hub steps).fields i).Valued := (history steps i).2

-- A receiver that had the sender's values gets them again exactly when each
-- field that is not sent is right without it: restored to the sender's value, or
-- not restored and as it was.
theorem default_bits_lossless (hub : ReplicatedState) (before after : List (LocalStep plain))
    (receiver : FragmentFields plain.toFragment) (baseline seq : SequenceNumber) (inherit_status : Bool)
    (agrees : ∀ i, effective receiver i = (history before).effective i)
    (wrote : (ofHistory hub (before ++ after)).marshalAttributes (plainContext baseline) = some attributes) :
    (ofHistory hub (before ++ after)).Lossless receiver baseline seq inherit_status ↔
      ∀ i, (ofHistory hub (before ++ after)).dirty baseline i = false →
        if (ofHistory hub (before ++ after)).restored baseline i then
          (plain.field i).initialHandler.effectiveValue = (history (before ++ after)).effective i
        else (history before).effective i = (history (before ++ after)).effective i := by
  have known : effective receiver = (history before).effective := funext agrees
  have exactly := lossless_iff (history_valued hub (before ++ after)) wrote receiver seq inherit_status
  rw [known] at exactly
  exact exactly

end Plain

section Defaults
open PlainState

def twoBytes : PlainSchema := ⟨2,fun _ => byteField none,fun _ => 0⟩

def setByte (index : Fin 2) (value : UInt8) : LocalStep twoBytes := .change ⟨index,.setValue value⟩

-- The default is the value that a fresh instance has anyway.
theorem default_bits_lossless_zero :
    (ofHistory .new ([] ++ [.setDefaultValue (0 : Fin 2) (0 : UInt8),setByte 1 7])).Lossless (fresh twoBytes.toFragment).fields
      .invalid (.seq 9) true :=
  (default_bits_lossless .new [] [.setDefaultValue (0 : Fin 2) (0 : UInt8),setByte 1 7] (fresh twoBytes.toFragment).fields
    .invalid (.seq 9) true (fun _ => rfl) rfl).mpr (by decide)

-- The default bit of the first field makes it 0 on the receiver, not 5.
theorem sender_default_lost :
    ¬∀ (plain : PlainSchema) (before after : List (LocalStep plain)) (receiver : FragmentFields plain.toFragment)
      (baseline seq : SequenceNumber) (inherit_status : Bool),
      (∀ i, effective receiver i = (history before).effective i) →
      (ofHistory .new (before ++ after)).Lossless receiver baseline seq inherit_status := by
  intro lossless
  have merged := lossless twoBytes [] [.setDefaultValue (0 : Fin 2) (5 : UInt8),setByte 1 7] (fresh twoBytes.toFragment).fields
    .invalid (.seq 9) true (fun _ => rfl)
  have wrong := (lossless_iff (history_valued _ _) rfl _ _ _).mp merged (0 : Fin 2) (by decide)
  exact absurd wrong (by decide)

end Defaults
end NwNetwork.Hub.DerivedFragment
