import NwNetwork.HubFixedContents

namespace NwNetwork.Serialize.ReplicatedState
open WireReader

-- Two states that agree on the fields of the groups that are sent.
def SameSent {schema : Schema} (mc : MarshalContext) (left right : ReplicatedState schema) : Prop :=
  ∀ i, mc.shouldSend (schema.group i) = true → left i = right i

section SameSent
variable {schema : Schema} {mc : MarshalContext} {left right : ReplicatedState schema}

theorem payloads_congr {dirty dirty' : Fin schema.count → Bool} {fields : List (Fin schema.count)}
    (same : ∀ i ∈ fields, left i = right i) (marks : ∀ i ∈ fields, dirty i = dirty' i) :
    left.payloads dirty fields = right.payloads dirty' fields := by
  unfold payloads
  rw [List.filter_congr marks]
  apply List.flatMap_congr
  intro i member
  rw [same i (List.mem_of_mem_filter member)]

theorem fieldMask_congr {dirty dirty' : Fin schema.count → Bool} {fields : List (Fin schema.count)}
    (marks : ∀ i ∈ fields, dirty i = dirty' i) : fieldMask dirty fields = fieldMask dirty' fields := by
  have early : (fields.take 7).map dirty = (fields.take 7).map dirty' :=
    List.map_congr_left fun i member => marks i (List.mem_of_mem_take member)
  have later : (fields.drop 7).any dirty = (fields.drop 7).any dirty' := by
    rw [Bool.eq_iff_iff,List.any_eq_true,List.any_eq_true]
    constructor
    · rintro ⟨i,member,set⟩
      exact ⟨i,member,marks i (List.mem_of_mem_drop member) ▸ set⟩
    · rintro ⟨i,member,set⟩
      exact ⟨i,member,(marks i (List.mem_of_mem_drop member)).symm ▸ set⟩
  unfold fieldMask
  rw [early,later]

theorem marshalFieldChunks_congr {dirty dirty' : Fin schema.count → Bool} {fields : List (Fin schema.count)}
    (same : ∀ i ∈ fields, left i = right i) (marks : ∀ i ∈ fields, dirty i = dirty' i) (count : Nat) (is_first : Bool) :
    left.marshalFieldChunks dirty count is_first fields = right.marshalFieldChunks dirty' count is_first fields := by
  induction count generalizing is_first fields with
  | zero => rfl
  | succ count ih =>
    have head := payloads_congr (fun i member => same i (List.mem_of_mem_take member))
      (fun i (member : i ∈ fields.take 7) => marks i (List.mem_of_mem_take member))
    have tail := ih (fun i member => same i (List.mem_of_mem_drop member))
      (fun i (member : i ∈ fields.drop 7) => marks i (List.mem_of_mem_drop member)) false
    unfold marshalFieldChunks
    rw [fieldMask_congr marks,head,tail]

theorem descriptorDirty_congr (same : SameSent mc left right) : left.descriptorDirty mc = right.descriptorDirty mc := by
  funext group_idx
  unfold descriptorDirty
  cases send : mc.shouldSend group_idx with
  | false => rfl
  | true =>
    rw [Bool.true_and,Bool.true_and,Bool.eq_iff_iff,List.any_eq_true,List.any_eq_true]
    have agree : ∀ i ∈ schema.fieldsOf group_idx, left.fieldDirty mc i = right.fieldDirty mc i := by
      intro i member
      unfold fieldDirty
      rw [same i (by rw [Schema.mem_fieldsOf.mp member]; exact send)]
    constructor
    · rintro ⟨i,member,dirty⟩
      exact ⟨i,member,agree i member ▸ dirty⟩
    · rintro ⟨i,member,dirty⟩
      exact ⟨i,member,(agree i member).symm ▸ dirty⟩

theorem marshalGroup_congr (same : SameSent mc left right) (send : mc.shouldSend group_idx = true) :
    left.marshalGroup mc group_idx = right.marshalGroup mc group_idx := by
  have fields : ∀ i ∈ schema.fieldsOf group_idx, left i = right i := by
    intro i member
    apply same i
    rw [Schema.mem_fieldsOf.mp member]
    exact send
  apply marshalFieldChunks_congr fields
  intro i member
  unfold fieldDirty
  rw [fields i member]

theorem marshalFields_congr (same : SameSent mc left right) : left.marshalFields mc = right.marshalFields mc := by
  have chunk : left.marshalChunk mc = right.marshalChunk mc := by
    funext chunk_idx
    unfold marshalChunk
    dsimp only
    rw [descriptorDirty_congr same]
    congr 1
    apply List.flatMap_congr
    intro group_idx member
    have dirty := (List.mem_filter.mp member).2
    exact marshalGroup_congr same (Bool.and_eq_true_iff.mp dirty).1
  unfold marshalFields
  rw [descriptorDirty_congr same,chunk]

end SameSent
end NwNetwork.Serialize.ReplicatedState

namespace NwNetwork.Hub
open WireReader Serialize

theorem resolve_shouldSend {mc : MarshalContext} {should_send : ClientActorHash → Nat → Bool}
    (target : mc.filterTarget = some client_id) : (mc.resolve should_send).shouldSend = should_send client_id := by
  unfold MarshalContext.resolve Serialize.MarshalContext.shouldSend
  rw [target]
  rfl

namespace DerivedFragment
variable {schema : FragmentSchema} {left right : DerivedFragment schema}

-- A group that the header does not have is sent to all.
def whitelist (fragment : DerivedFragment schema) (group_idx : Nat) : List FilterValue :=
  (fragment.hub.filterGroups[group_idx]?).elim [] ReplicatedFilterGroup.targets

def Hides (fragment : DerivedFragment schema) (client_id : ClientActorHash) (group_idx : Nat) : Prop :=
  fragment.whitelist group_idx ≠ [] ∧ ∀ entry ∈ fragment.whitelist group_idx, entry.value ≠ client_id

theorem shouldSend_whitelist (fragment : DerivedFragment schema) (client_id : ClientActorHash) (group_idx : Nat) :
    fragment.shouldSendToClientGroup client_id group_idx =
      (decide (group_idx < nGroups schema) && decide (group_idx < maxFiltergroupsPerReplicatedState) &&
        ((fragment.whitelist group_idx).isEmpty || (fragment.whitelist group_idx).any fun entry => entry.value == client_id)) := by
  unfold shouldSendToClientGroup ReplicatedState.shouldSendToClient whitelist
  by_cases few : maxFiltergroupsPerReplicatedState ≤ group_idx
  · rw [if_pos few,decide_eq_false (Nat.not_lt.mpr few)]
    simp
  · rw [if_neg few,decide_eq_true (Nat.lt_of_not_le few)]
    cases fragment.hub.filterGroups[group_idx]? with
    | none => simp
    | some group => simp [ReplicatedFilterGroup.shouldSendToClient]

theorem hides_unsent {fragment : DerivedFragment schema} (hides : fragment.Hides client_id group_idx) :
    fragment.shouldSendToClientGroup client_id group_idx = false := by
  have absent : (fragment.whitelist group_idx).any (fun entry => entry.value == client_id) = false := by
    rw [List.any_eq_false]
    intro entry member
    rw [beq_iff_eq]
    exact hides.2 entry member
  rw [shouldSend_whitelist,absent,List.isEmpty_eq_false_iff.mpr hides.1]
  exact Bool.and_false _

theorem contents_noninterference {mc : MarshalContext} (target : mc.filterTarget = some client_id)
    (whitelists : ∀ group_idx, left.whitelist group_idx = right.whitelist group_idx)
    (visible : ∀ i, ¬left.Hides client_id (schema.group i) → left.fields i = right.fields i) :
    left.marshalContentsWith mc = right.marshalContentsWith mc := by
  have answers : left.shouldSendToClientGroup = right.shouldSendToClientGroup := by
    funext client_id group_idx
    rw [shouldSend_whitelist,shouldSend_whitelist,whitelists]
  have same : Serialize.ReplicatedState.SameSent (left.context mc) left.fields right.fields := by
    intro i sent
    apply visible i
    intro hides
    unfold context at sent
    rw [resolve_shouldSend target] at sent
    exact Bool.eq_false_iff.mp (hides_unsent hides) sent
  unfold marshalContentsWith
  rw [Serialize.ReplicatedState.marshalFields_congr same]
  unfold context
  rw [answers]

end DerivedFragment

namespace FixedFragment
variable {schema : FixedSchema} {left right : FixedFragment schema}

def Hides (fragment : FixedFragment schema) (client_id : ClientActorHash) (group_idx : Nat) : Prop :=
  ∃ inside : group_idx < schema.nGroups, (fragment.groups ⟨group_idx,inside⟩).whitelist ≠ [] ∧
    client_id ∉ (fragment.groups ⟨group_idx,inside⟩).whitelist

theorem hides_unsent {fragment : FixedFragment schema} (hides : fragment.Hides client_id group_idx) :
    fragment.shouldSendToClient client_id group_idx = false := by
  obtain ⟨inside,some,absent⟩ := hides
  unfold shouldSendToClient FieldGroupState.shouldSendToClient
  rw [dif_pos inside,List.isEmpty_eq_false_iff.mpr some,Bool.false_or,List.contains_eq_mem,decide_eq_false absent]

theorem marshalFields_congr (same : ∀ i ∈ schema.toSchema.fieldsOf group_idx, left.fields i = right.fields i)
    (baseline : SequenceNumber) : left.marshalFields group_idx baseline = right.marshalFields group_idx baseline := by
  have mask : left.groupMask group_idx baseline = right.groupMask group_idx baseline := by
    unfold groupMask
    rw [List.map_congr_left fun i member => by rw [same i member]]
  have bodies : ∀ (bits : Nat → Bool) (bit : Nat) (fields : List (Fin schema.count)),
      (∀ i ∈ fields, left.fields i = right.fields i) →
      MaskedSlots.writeSlots (fun i => (schema.type i).marshalSince (left.fields i) baseline) bits bit fields =
        MaskedSlots.writeSlots (fun i => (schema.type i).marshalSince (right.fields i) baseline) bits bit fields := by
    intro bits bit fields agree
    induction fields generalizing bit with
    | nil => rfl
    | cons i fields ih =>
      have head : left.fields i = right.fields i := agree i List.mem_cons_self
      have tail := ih (bit + 1) fun j member => agree j (List.mem_cons_of_mem i member)
      unfold MaskedSlots.writeSlots
      rw [head,tail]
  unfold marshalFields
  rw [mask]
  dsimp only
  rw [bodies _ _ _ same]

theorem contents_noninterference {mc : MarshalContext} (target : mc.filterTarget = some client_id)
    (whitelists : ∀ group_idx, (left.groups group_idx).whitelist = (right.groups group_idx).whitelist)
    (visible : ∀ i, ¬left.Hides client_id (schema.group i) → left.fields i = right.fields i) :
    left.marshalFixedContents mc = right.marshalFixedContents mc := by
  have answers : left.shouldSendToClient = right.shouldSendToClient := by
    funext client_id group_idx
    unfold shouldSendToClient FieldGroupState.shouldSendToClient
    simp only [whitelists]
  have context : left.context mc = right.context mc := by
    unfold FixedFragment.context
    rw [answers]
  have body : left.groupBody mc = right.groupBody mc := by
    funext group_idx
    unfold groupBody
    rw [← context]
    split
    · rename_i sent
      apply marshalFields_congr
      intro i member
      apply visible i
      intro hides
      have own : schema.group i = group_idx := Schema.mem_fieldsOf.mp member
      rw [own] at hides
      unfold FixedFragment.context at sent
      rw [resolve_shouldSend target] at sent
      exact Bool.eq_false_iff.mp (hides_unsent hides) sent
    · rfl
  have present : left.groupPresent mc = right.groupPresent mc := by
    unfold groupPresent
    rw [body]
  unfold marshalFixedContents
  rw [present,body]

end FixedFragment

-- What a client is sent says nothing about the groups hidden from it.
theorem filter_noninterference (client_id : ClientActorHash) (mc : MarshalContext)
    (target : mc.filterTarget = some client_id) :
    (∀ (schema : FragmentSchema) (left right : DerivedFragment schema),
      (∀ group_idx, left.whitelist group_idx = right.whitelist group_idx) →
      (∀ i, ¬left.Hides client_id (schema.group i) → left.fields i = right.fields i) →
      left.marshalContentsWith mc = right.marshalContentsWith mc) ∧
    ∀ (schema : FixedSchema) (left right : FixedFragment schema),
      (∀ group_idx, (left.groups group_idx).whitelist = (right.groups group_idx).whitelist) →
      (∀ i, ¬left.Hides client_id (schema.group i) → left.fields i = right.fields i) →
      left.marshalFixedContents mc = right.marshalFixedContents mc :=
  ⟨fun _ _ _ => DerivedFragment.contents_noninterference target,
    fun _ _ _ => FixedFragment.contents_noninterference target⟩

section Hidden
open DerivedFragment FixedFragment

def hiddenGroup : ReplicatedFilterGroup :=
  {ReplicatedFilterGroup.default with
    explicitClientTargets := ⟨some [⟨1,1⟩],.validNonSequence,none,false⟩
    targetsHeld := rfl}

def hiddenState (secret : UInt8) : DerivedFragment (byteFields 2 Fin.val) :=
  ⟨⟨[.default,hiddenGroup],by decide⟩,fun i => byteValue (some (if i.val = 0 then 3 else secret)) (.seq 4)⟩

def nineHidden (secret : UInt8) : FixedFragment nineGroups :=
  ⟨nineState.groups,fun i => if i.val = 3 then byteValue (some secret) (.seq 4) else nineState.fields i⟩

theorem filter_noninterference_hidden :
    (hiddenState 5).marshalContentsWith nineContext = (hiddenState 6).marshalContentsWith nineContext ∧
      (nineHidden 5).marshalFixedContents nineContext = (nineHidden 6).marshalFixedContents nineContext := by
  obtain ⟨derived,fixed⟩ := filter_noninterference 7 nineContext rfl
  constructor
  · refine derived _ (hiddenState 5) (hiddenState 6) (fun _ => rfl) fun i visible => ?_
    by_cases first : i.val = 0
    · simp only [hiddenState,first]
      rfl
    · have own : (byteFields 2 Fin.val).group i = 1 := by
        have bound : i.val < 2 := i.isLt
        change i.val = 1
        omega
      rw [own] at visible
      exact absurd ⟨by decide,by decide⟩ visible
  · refine fixed _ (nineHidden 5) (nineHidden 6) (fun _ => rfl) fun i visible => ?_
    by_cases other : i.val = 3
    · have own : nineGroups.group i = 4 := by
        change (if i.val < 3 then 0 else if i.val = 3 then 4 else 8) = 4
        rw [other]
        rfl
      rw [own] at visible
      exact absurd ⟨by decide,by decide,by decide⟩ visible
    · have kept : ∀ secret, (nineHidden secret).fields i = nineState.fields i := fun secret => if_neg other
      rw [kept,kept]

end Hidden
end NwNetwork.Hub
