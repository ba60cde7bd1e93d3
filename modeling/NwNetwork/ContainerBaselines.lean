import NwNetwork.ContainerDelta
import NwNetwork.ReplicatedContents
import Mathlib.Data.List.TakeWhile

namespace NwNetwork.Serialize
open WireReader Hub StateRuns

-- A container as a field of a derived state. It is written without a baseline.
abbrev containerType [Inhabited V] (kind : StorageKind V K) (key_codec : Codec MarshalerError K)
    (value_codec : Codec MarshalerError V) (cap : Nat) : FieldType where
  Handler := ReplicatedContainer kind.storage
  initial := .default
  isDirty := ReplicatedContainer.isDirty
  marshal container := (container.marshal key_codec value_codec).getD []
  unmarshal := ReplicatedContainer.unmarshal key_codec value_codec cap
  mergeAndUpdateSequence container old_value new_value seq inherit_status :=
    container.mergeAndUpdateSequence old_value new_value false seq inherit_status
  lastModified := ReplicatedContainer.lastModified
  hasNewNetworkData container := container.flags.newNetworkData

-- What a receiver makes of what it has decoded.
def ReplicatedContainer.appliedTo {storage : ContainerStorage K V} (decoded : ReplicatedContainer storage)
    (receiver : storage.Values) : storage.Values :=
  if decoded.isDelta then storage.applyChanges receiver decoded.currentChanges else decoded.values

section Agreement
variable {K V : Type} (kind : StorageKind V K) (key_codec : Codec MarshalerError K)
  (value_codec : Codec MarshalerError V) (cap : Nat)

def Decodes (bytes : Option Bytes) (decoded : ReplicatedContainer kind.storage) : Prop :=
  ∃ written, bytes = some written ∧ ∀ rest,
    (ReplicatedContainer.unmarshal key_codec value_codec cap : Read (ReplicatedContainer kind.storage))
      (written ++ rest) = .ok (decoded,rest)

-- Both are decoded, and applied by a receiver of the known values they give the same.
def Agree (one two : Option Bytes) (known : kind.storage.Values) : Prop :=
  ∃ first second, Decodes kind key_codec value_codec cap one first ∧ Decodes kind key_codec value_codec cap two second ∧
    ∀ receiver, kind.storage.Same receiver known →
      kind.storage.Same (first.appliedTo receiver) (second.appliedTo receiver)

variable {kind key_codec value_codec cap} {known now : kind.storage.Values}

theorem decodes_once (one : Decodes kind key_codec value_codec cap bytes first)
    (two : Decodes kind key_codec value_codec cap bytes second) : first = second := by
  obtain ⟨written,rfl,read⟩ := one
  obtain ⟨_,same,again⟩ := two
  cases same
  cases (read []).symm.trans (again [])
  rfl

theorem conveys_iff : Conveys kind key_codec value_codec cap bytes known now ↔
    ∃ decoded, Decodes kind key_codec value_codec cap bytes decoded ∧ ∀ receiver, kind.storage.Same receiver known →
      kind.storage.Same (decoded.appliedTo receiver) now := by
  constructor
  · rintro ⟨written,decoded,sent,read,conveyed⟩
    refine ⟨decoded,⟨written,sent,read⟩,?_⟩
    unfold ReplicatedContainer.appliedTo
    rcases conveyed with ⟨snapshot,same⟩ | ⟨delta,leads⟩
    · rw [snapshot]
      exact fun _ _ => same
    · rw [delta]
      exact leads
  · rintro ⟨decoded,⟨written,sent,read⟩,leads⟩
    refine ⟨written,decoded,sent,read,?_⟩
    unfold ReplicatedContainer.appliedTo at leads
    cases delta : decoded.isDelta with
    | false =>
      rw [delta] at leads
      exact .inl ⟨rfl,leads known (kind.same_refl known)⟩
    | true =>
      rw [delta] at leads
      exact .inr ⟨rfl,leads⟩

theorem agree_symm (agree : Agree kind key_codec value_codec cap one two known) :
    Agree kind key_codec value_codec cap two one known := by
  obtain ⟨first,second,decoded,other,same⟩ := agree
  exact ⟨second,first,other,decoded,fun receiver known => kind.same_symm (same receiver known)⟩

-- Where one conveys the values, the other agrees with it when it conveys them too.
theorem agree_iff (conveyed : Conveys kind key_codec value_codec cap one known now) :
    Agree kind key_codec value_codec cap one two known ↔ Conveys kind key_codec value_codec cap two known now := by
  obtain ⟨first,decoded,leads⟩ := conveys_iff.mp conveyed
  rw [conveys_iff]
  constructor
  · rintro ⟨_,second,again,other,same⟩
    cases decodes_once decoded again
    refine ⟨second,other,?_⟩
    exact fun receiver holds => kind.same_trans (kind.same_symm (same receiver holds)) (leads receiver holds)
  · rintro ⟨second,other,leads_too⟩
    refine ⟨first,second,decoded,other,?_⟩
    exact fun receiver holds => kind.same_trans (leads receiver holds) (kind.same_symm (leads_too receiver holds))

-- Where the source stops while it writes, the derived field has nothing to decode.
theorem conveys_written : Conveys kind key_codec value_codec cap (some (bytes.getD [])) known now ↔
    Conveys kind key_codec value_codec cap bytes known now := by
  cases bytes with
  | some written => exact Iff.rfl
  | none =>
    constructor
    · rintro ⟨_,_,sent,read,_⟩
      cases sent
      cases read []
    · rintro ⟨_,_,sent,_⟩
      cases sent

variable [Inhabited V] {container : ReplicatedContainer kind.storage}

-- The recorded changes of a container convey its values to a receiver without any
-- when they make up all places of the values.
theorem changes_rebuild {edits : List (Edit K V)} (recorded : container.currentChanges = edits.map Edit.recorded)
    (several : container.currentChanges ≠ []) :
    Conveys kind key_codec value_codec cap (container.marshalChanges key_codec value_codec container.currentChanges)
        kind.storage.empty container.values ↔
      (container.currentChanges.length ≤ cap ∧ container.currentChanges.length < 2^32) ∧
        kind.Rebuilt container.currentChanges container.values := by
  have unsequenced : ∀ change ∈ container.currentChanges, change.sequence = .invalid :=
    recorded ▸ Edit.recorded_unsequenced
  have sent : container.currentChanges.map container.received =
      container.currentChanges.map (kind.storage.carried container.values) := by
    rw [recorded,List.map_map,List.map_map]
    exact List.map_congr_left fun edit _ => received_recorded edit
  by_cases small : container.currentChanges.length < 2^32
  · by_cases room : container.currentChanges.length ≤ cap
    · rw [conveys_list unsequenced several room small,sent,kind.rebuilds]
      exact ⟨fun rebuilt => ⟨⟨room,small⟩,rebuilt⟩,And.right⟩
    · refine ⟨?_,fun fits => absurd fits.1.1 room⟩
      rintro ⟨written,_,bytes,read,_⟩
      cases (container.changes_overflow key_codec value_codec (Nat.lt_of_not_le room) bytes []).symm.trans (read [])
  · refine ⟨?_,fun fits => absurd fits.1.2 small⟩
    rintro ⟨written,_,bytes,_⟩
    unfold ReplicatedContainer.marshalChanges marshalWireCount at bytes
    rw [if_neg small] at bytes
    cases bytes

end Agreement

section Histories
variable {K V : Type} {baseline : SequenceNumber}

-- What happened before the first merge that the baseline lacks.
def SenderAction.known (baseline : SequenceNumber) : SenderAction K V → Bool
  | .edit _ => true
  | .merge seq => !baseline.less seq

theorem known_earlier (actions : List (SenderAction K V)) :
    ∀ seq ∈ mergeSequences (actions.takeWhile (SenderAction.known baseline)), baseline.less seq = false := by
  intro seq present
  obtain ⟨action,member,merged⟩ := List.mem_filterMap.mp present
  have known := List.mem_takeWhile_imp member
  cases action with
  | edit edit => cases merged
  | merge seq =>
    cases merged
    exact Bool.not_eq_true' _ |>.mp known

theorem known_later {actions : List (SenderAction K V)}
    (rising : (mergeSequences actions).Pairwise fun earlier later => earlier.less later = true) :
    ∀ seq ∈ mergeSequences (actions.dropWhile (SenderAction.known baseline)), baseline.less seq = true := by
  induction actions with
  | nil => exact fun _ present => nomatch present
  | cons action actions ih =>
    cases action with
    | edit edit => exact ih rising
    | merge first =>
      obtain ⟨above,rest⟩ := List.pairwise_cons.mp rising
      cases newer : baseline.less first with
      | false =>
        have skipped : SenderAction.known baseline (.merge first : SenderAction K V) = true := Bool.not_eq_true' _ |>.mpr newer
        rw [List.dropWhile_cons_of_pos skipped]
        exact ih rest
      | true =>
        have kept : ¬SenderAction.known baseline (.merge first : SenderAction K V) = true := by
          change ¬(!baseline.less first) = true
          rw [newer]
          exact Bool.false_ne_true
        rw [List.dropWhile_cons_of_neg kept]
        intro seq present
        rcases List.mem_cons.mp present with rfl | later
        · exact newer
        · exact SequenceNumber.less_trans newer (above seq later)

-- No merge is known to an invalid baseline.
theorem none_known {actions : List (SenderAction K V)} (real : ∀ seq ∈ mergeSequences actions, seq.IsReal)
    (invalid : baseline.isValid = false) : mergeSequences (actions.takeWhile (SenderAction.known baseline)) = [] := by
  rw [List.eq_nil_iff_forall_not_mem]
  intro seq present
  have older := known_earlier actions seq present
  have valid : seq.isValid = true := by
    apply SequenceNumber.real_valid
    apply real
    obtain ⟨action,member,merged⟩ := List.mem_filterMap.mp present
    exact List.mem_filterMap.mpr ⟨action,List.takeWhile_subset _ member,merged⟩
  have newer : baseline.less seq = true := by
    rw [SequenceNumber.less_iff]
    unfold SequenceNumber.rank
    rw [invalid,valid]
    exact Nat.succ_pos _
  cases older.symm.trans newer

theorem merged_unchanged {storage : ContainerStorage K V} (sender : Sender storage) {actions : List (SenderAction K V)}
    (edits : mergeSequences actions = []) : (sender.run actions).merged = sender.merged := by
  induction actions generalizing sender with
  | nil => rfl
  | cons action actions ih =>
    cases action with
    | edit edit => exact ih (sender.step (.edit edit)) edits
    | merge seq => cases edits

-- A container that a valid baseline finds dirty has no edits pending.
theorem dirty_merged {storage : ContainerStorage K V} {sender : Sender storage} (own : Local sender)
    (dirty : sender.working.isDirty baseline = true) (valid : baseline.isValid = true) :
    sender.working.currentChanges = [] := by
  cases recording : sender.working.flags.initializeChange with
  | true => exact own.unrecorded recording
  | false =>
    apply (pending_changes own recording).mpr
    by_contra several
    unfold ReplicatedContainer.isDirty at dirty
    rw [own.touched several,SequenceNumber.less_iff] at dirty
    unfold SequenceNumber.rank at dirty
    rw [if_pos valid] at dirty
    exact absurd dirty (Nat.not_lt.mpr (Nat.succ_le_succ (Nat.zero_le _)))

end Histories

section Fields
variable {K V : Type} [Inhabited V] {kind : StorageKind V K} {key_codec : Codec MarshalerError K}
  {value_codec : Codec MarshalerError V} {cap : Nat}

theorem container_field {type : FieldType} (same : type = containerType kind key_codec value_codec cap)
    {handler : type.Handler} {container : ReplicatedContainer kind.storage}
    (field : cast (congrArg FieldType.Handler same) handler = container) :
    (∀ baseline, type.isDirty handler baseline = container.isDirty baseline) ∧
      type.marshal handler = (container.marshal key_codec value_codec).getD [] := by
  subst same
  cases field
  exact ⟨fun _ => rfl,rfl⟩

theorem field_payload {schema : Schema} {state : ReplicatedState schema} {i : Fin schema.count} {mc : MarshalContext}
    (dirty : state.fieldDirty mc i = true) :
    state.payloads (state.fieldDirty mc) [i] = (schema.type i).marshal (state i) := by
  unfold ReplicatedState.payloads
  rw [List.filter_cons_of_pos dirty]
  exact List.append_nil _

theorem marshal_merged {container : ReplicatedContainer kind.storage} (merged : container.currentChanges = [])
    (room : kind.storage.len container.values ≤ cap) (small : kind.storage.len container.values < 2^32)
    (known : kind.storage.Values) :
    Conveys kind key_codec value_codec cap (container.marshal key_codec value_codec) known container.values := by
  unfold ReplicatedContainer.marshal
  rw [merged]
  exact conveys_full room small known

theorem marshal_pending {sender : Sender kind.storage} (own : Local sender)
    (room : kind.storage.len sender.working.values ≤ cap) (small : kind.storage.len sender.working.values < 2^32) :
    Conveys kind key_codec value_codec cap (sender.working.marshal key_codec value_codec) kind.storage.empty
        sender.working.values ↔
      (sender.working.currentChanges ≠ [] →
        (sender.working.currentChanges.length ≤ cap ∧ sender.working.currentChanges.length < 2^32) ∧
          kind.Rebuilt sender.working.currentChanges sender.working.values) := by
  by_cases several : sender.working.currentChanges = []
  · exact ⟨fun _ absent => absurd several absent,fun _ => marshal_merged several room small _⟩
  · have recording : sender.working.flags.initializeChange = false := by
      by_contra initial
      exact several (own.unrecorded (Bool.not_eq_false _ ▸ initial))
    unfold ReplicatedContainer.marshal
    rw [List.isEmpty_eq_false_iff.mpr several,if_neg Bool.false_ne_true,
      changes_rebuild (own.recorded recording).1 several]
    exact ⟨fun fits _ => fits,fun fits => fits several⟩

-- The same for the bytes with the baseline, as long as a change list for it has a
-- journal that keeps the changes since.
theorem since_known {actions : List (SenderAction K V)} (increasing : Increasing actions) (last_modified : SequenceNumber)
    (values : kind.storage.Values) {baseline : SequenceNumber} (valid : baseline.isValid = true)
    {base sender : Sender kind.storage}
    (known : (Sender.start last_modified values).run (actions.takeWhile (SenderAction.known baseline)) = base)
    (reached : base.run (actions.dropWhile (SenderAction.known baseline)) = sender)
    (room : kind.storage.len sender.working.values ≤ cap) (small : kind.storage.len sender.working.values < 2^32)
    (kept : sender.working.listsSince baseline = true →
      EachAction Sender.step base (actions.dropWhile (SenderAction.known baseline)) fun sender action =>
        sender.keepsSince baseline action = true) :
    Conveys kind key_codec value_codec cap (sender.working.marshalSince key_codec value_codec baseline)
        base.merged.values sender.working.values ↔
      (sender.working.listsSince baseline = true →
        kind.InPlace (sender.working.changesSince baseline) base.merged.values sender.working.values) := by
  have own_start := local_start last_modified values
  have own_base : Local base := known ▸ local_run own_start _
  by_cases lists : sender.working.listsSince baseline = true
  · have since_base : Since baseline base.merged.values base := by
      rw [← known]
      exact since_baseline (Sender.start last_modified values) own_start rfl (known_earlier actions)
    have since : Since baseline base.merged.values sender := by
      rw [← reached]
      exact since_run own_base since_base _ (known_later increasing.rising) (kept lists)
    rw [marshalSince_conveys (reached ▸ local_run own_base _) since room small]
    exact ⟨fun in_place listed => in_place valid listed,fun in_place _ listed => in_place listed⟩
  · refine ⟨fun _ listed => absurd listed lists,fun _ => ?_⟩
    rw [marshalSince_forms,Bool.eq_false_iff.mpr lists,Bool.and_false,if_neg Bool.false_ne_true]
    exact conveys_full room small _

-- What the derived contents write for a dirty container and what it would write for
-- the baseline give a receiver the same values if: at a valid baseline, should a
-- change list be for it, no merge since starts anew or drops a change set, and the
-- elements of a vector stand in place; at an invalid one, pending changes make up the
-- whole container.
theorem derived_container_baselines (schema : Schema) (state : ReplicatedState schema) (mc : MarshalContext)
    (i : Fin schema.count) (type : schema.type i = containerType kind key_codec value_codec cap)
    (last_modified : SequenceNumber) (values : kind.storage.Values) {actions : List (SenderAction K V)}
    (increasing : Increasing actions) {baseline : SequenceNumber} (at_baseline : mc.baselineFor (schema.group i) = baseline)
    {base sender : Sender kind.storage}
    (known : (Sender.start last_modified values).run (actions.takeWhile (SenderAction.known baseline)) = base)
    (reached : base.run (actions.dropWhile (SenderAction.known baseline)) = sender)
    (field : cast (congrArg FieldType.Handler type) (state i) = sender.working)
    (dirty : state.fieldDirty mc i = true) (room : kind.storage.len sender.working.values ≤ cap)
    (small : kind.storage.len sender.working.values < 2^32)
    (kept : baseline.isValid = true → sender.working.listsSince baseline = true →
      EachAction Sender.step base (actions.dropWhile (SenderAction.known baseline)) fun sender action =>
        sender.keepsSince baseline action = true) :
    (Agree kind key_codec value_codec cap (some (state.payloads (state.fieldDirty mc) [i]))
          (sender.working.marshalSince key_codec value_codec baseline) base.merged.values ∧
        (baseline.isValid = false → Conveys kind key_codec value_codec cap
          (some (state.payloads (state.fieldDirty mc) [i])) base.merged.values sender.working.values)) ↔
      (baseline.isValid = true → sender.working.listsSince baseline = true →
          kind.InPlace (sender.working.changesSince baseline) base.merged.values sender.working.values) ∧
        (baseline.isValid = false → sender.working.currentChanges ≠ [] →
          (sender.working.currentChanges.length ≤ cap ∧ sender.working.currentChanges.length < 2^32) ∧
            kind.Rebuilt sender.working.currentChanges sender.working.values) := by
  have own_start := local_start last_modified values
  have own_base : Local base := known ▸ local_run own_start _
  have own : Local sender := reached ▸ local_run own_base _
  obtain ⟨field_dirty,field_marshal⟩ := container_field type field
  have container_dirty : sender.working.isDirty baseline = true := by
    rw [← field_dirty,← at_baseline]
    exact dirty
  rw [field_payload dirty,field_marshal]
  cases valid : baseline.isValid with
  | true =>
    have full : Conveys kind key_codec value_codec cap
        (some ((sender.working.marshal key_codec value_codec).getD [])) base.merged.values sender.working.values :=
      conveys_written.mpr (marshal_merged (dirty_merged own container_dirty valid) room small _)
    rw [agree_iff full,since_known increasing last_modified values valid known reached room small (kept valid)]
    exact ⟨fun both => ⟨fun _ => both.1,nofun⟩,fun both => ⟨both.1 rfl,nofun⟩⟩
  | false =>
    have nothing : base.merged.values = kind.storage.empty := by
      rw [← known,merged_unchanged _ (none_known increasing.real valid)]
      rfl
    have full : Conveys kind key_codec value_codec cap (sender.working.marshalSince key_codec value_codec baseline)
        base.merged.values sender.working.values := by
      rw [marshalSince_forms,valid]
      exact conveys_full room small _
    have agree : Agree kind key_codec value_codec cap (some ((sender.working.marshal key_codec value_codec).getD []))
          (sender.working.marshalSince key_codec value_codec baseline) base.merged.values ↔
        Conveys kind key_codec value_codec cap (some ((sender.working.marshal key_codec value_codec).getD []))
          base.merged.values sender.working.values :=
      ⟨fun both => (agree_iff full).mp (agree_symm both),fun conveyed => agree_symm ((agree_iff full).mpr conveyed)⟩
    rw [agree,conveys_written,nothing,marshal_pending own room small]
    exact ⟨fun both => ⟨nofun,fun _ => both.1⟩,fun both => ⟨both.2 rfl,fun _ => both.2 rfl⟩⟩

end Fields

section Examples

-- A derived state of one vector.
def vecSchema : Schema := ⟨1,fun _ => containerType byteVec indexKeys byteValues wireVecCap,fun _ => 0⟩

def vecField : Fin vecSchema.count := ⟨0,Nat.one_pos⟩

def vecState (sender : Sender byteVec.storage) : ReplicatedState vecSchema := fun _ => sender.working

def vecPayload (sender : Sender byteVec.storage) (baseline : SequenceNumber) : Bytes :=
  (vecState sender).payloads ((vecState sender).fieldDirty (.plain baseline)) [vecField]

theorem derived_container_baselines_update :
    Agree byteVec indexKeys byteValues wireVecCap
      (some (vecPayload (bytesSender three (.merge (.seq 1) :: updateAndMerge 0)) (.seq 1)))
      ((bytesSender three (.merge (.seq 1) :: updateAndMerge 0)).working.marshalSince indexKeys byteValues (.seq 1)) three := by
  have in_place : Vec.InPlace [.update 0 none .invalid] ([10,20,30] : List UInt8) [7,20,30] := by decide
  refine ((derived_container_baselines vecSchema (vecState (bytesSender three (.merge (.seq 1) :: updateAndMerge 0)))
    (.plain (.seq 1)) vecField rfl .validNonSequence three increasing_update rfl rfl rfl rfl (by decide) (by decide) (by decide)
    ?_).mpr ⟨fun _ _ => in_place,nofun⟩).1
  intro _ _
  exact each_cons.mpr ⟨rfl,each_nil⟩

-- A first send while an update of merged values is pending.
def pendingUpdate : Sender byteVec.storage := bytesSender three [.merge (.seq 1),.edit (.update 0 7)]

theorem pending_sent_alone :
    (vecState pendingUpdate).fieldDirty (.plain .invalid) vecField = true ∧
    ¬Agree byteVec indexKeys byteValues wireVecCap (some (vecPayload pendingUpdate .invalid))
      (pendingUpdate.working.marshalSince indexKeys byteValues .invalid) ([] : List UInt8) ∧
    ¬Conveys byteVec indexKeys byteValues wireVecCap (some (vecPayload pendingUpdate .invalid)) ([] : List UInt8)
      pendingUpdate.working.values := by
  have dirty : (vecState pendingUpdate).fieldDirty (.plain .invalid) vecField = true := by decide
  have recorded : pendingUpdate.working.currentChanges = [Edit.update 0 7].map Edit.recorded := rfl
  have alone : ¬Conveys byteVec indexKeys byteValues wireVecCap (some (vecPayload pendingUpdate .invalid)) ([] : List UInt8)
      pendingUpdate.working.values := by
    unfold vecPayload
    rw [field_payload dirty]
    intro conveyed
    obtain ⟨_,rebuilt⟩ := (changes_rebuild recorded (by decide)).mp (conveys_written.mp conveyed)
    have lost : ¬(Vec.trace ([.update 0 none .invalid] : List (Change (BitVec 64) UInt8)) []).map
        (Vec.fill ([7,20,30] : List UInt8)) = [7,20,30] := by decide
    exact lost rebuilt
  have full : Conveys byteVec indexKeys byteValues wireVecCap (pendingUpdate.working.marshalSince indexKeys byteValues .invalid)
      ([] : List UInt8) pendingUpdate.working.values := conveys_full (by decide) (by decide) _
  exact ⟨dirty,fun agree => alone ((agree_iff full).mp (agree_symm agree)),alone⟩

end Examples
end NwNetwork.Serialize
