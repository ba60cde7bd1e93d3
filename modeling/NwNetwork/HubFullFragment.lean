import NwNetwork.HubDefaultBits
import NwNetwork.HubFixedContents
import Mathlib.Data.List.FinRange

namespace NwNetwork.Hub
open WireReader MaskedSlots Serialize

section Sequences
variable {schema : FragmentSchema}

theorem fieldsOf_flatMap_nodup {groups : List Nat} (distinct : groups.Nodup) :
    (groups.flatMap schema.toSchema.fieldsOf).Nodup := by
  rw [List.nodup_flatMap]
  refine ⟨fun group_idx _ => fieldsOf_nodup group_idx,?_⟩
  apply distinct.imp
  intro left right apart i first second
  exact apart ((Schema.mem_fieldsOf.mp first).symm.trans (Schema.mem_fieldsOf.mp second))

-- The fields with the sequences of a sender's.
def stampFields (sender : FragmentFields schema) (order : List (Fin schema.count)) (fields : FragmentFields schema) :
    FragmentFields schema :=
  applySlots (changeSlot fun i field => (schema.type i).setLastModified field
    ((schema.type i).lastModified (sender i)).normalized) (fun _ => true) 0 order fields

theorem stampFields_at {sender fields : FragmentFields schema} {order : List (Fin schema.count)} (distinct : order.Nodup)
    (member : i ∈ order) : stampFields sender order fields i =
      (schema.type i).setLastModified (fields i) ((schema.type i).lastModified (sender i)).normalized := by
  refine (applySlots_change _ (fun _ => true) 0 fields i distinct).trans ?_
  rw [if_pos ⟨member,rfl⟩]

theorem sequences_back (sender fields : FragmentFields schema) (order : List (Fin schema.count)) (rest : Bytes) :
    readSlots unmarshalSequence (fun _ => true) 0 order fields (writeSlots (marshalSequence sender) (fun _ => true) 0 order ++ rest) =
      .ok (stampFields sender order fields,rest) := by
  apply slots_back
  intro j i _ _ fields rest
  exact Reader.bind_ok (SequenceNumber.sequence_back _ rest)

end Sequences

namespace FilterGroups

def stampAll (senders receivers : List ReplicatedFilterGroup) : List ReplicatedFilterGroup :=
  List.zipWith (fun sender receiver => ReplicatedFilterGroup.setLastModified receiver
    sender.explicitClientTargets.lastModified.normalized sender.defaultBits.lastModified.normalized) senders receivers

theorem metadata_back {senders receivers : List ReplicatedFilterGroup} (same : receivers.length = senders.length) :
    ∃ stamped, (∀ rest, unmarshalMetadata receivers (marshalMetadata senders ++ rest) = .ok (stamped,rest)) ∧
      stamped.1 = stampAll senders receivers := by
  induction receivers generalizing senders with
  | nil =>
    have none : senders = [] := List.eq_nil_of_length_eq_zero same.symm
    rw [none]
    exact ⟨⟨[],rfl⟩,fun _ => rfl,rfl⟩
  | cons receiver receivers ih =>
    cases senders with
    | nil => cases same
    | cons sender senders =>
      obtain ⟨others,reads,stamped⟩ := ih (Nat.succ.inj same)
      refine ⟨⟨_ :: others.1,congrArg Nat.succ others.2⟩,?_,congrArg (_ :: ·) stamped⟩
      intro rest
      have explicit := SequenceNumber.sequence_back sender.explicitClientTargets.lastModified
        (sender.defaultBits.lastModified.marshal ++ (marshalMetadata senders ++ rest))
      have bits := SequenceNumber.sequence_back sender.defaultBits.lastModified (marshalMetadata senders ++ rest)
      have split : marshalMetadata (sender :: senders) = sender.explicitClientTargets.lastModified.marshal ++
          sender.defaultBits.lastModified.marshal ++ marshalMetadata senders := rfl
      rw [split,List.append_assoc,List.append_assoc]
      unfold unmarshalMetadata
      rw [Reader.bind_ok explicit,Reader.bind_ok bits,Reader.bind_ok (reads rest)]
      rfl

end FilterGroups

-- Attributes that were written have arrived, and so have all sequences.
def ReplicatedFilterGroup.ReceivedAs (sender : ReplicatedFilterGroup) (baseline : SequenceNumber)
    (received : ReplicatedFilterGroup) : Prop :=
  (sender.explicitClientTargets.isDirtySince baseline = true → received.targets = sender.targets) ∧
  (sender.defaultBits.isDirtySince baseline = true → received.bits = sender.bits) ∧
  received.explicitClientTargets.lastModified.sameAs sender.explicitClientTargets.lastModified = true ∧
  received.defaultBits.lastModified.sameAs sender.defaultBits.lastModified = true

-- Receivers of all attributes and sequences of as many groups.
theorem FilterGroups.groups_back {senders receivers final : List ReplicatedFilterGroup} {sender : ReplicatedFilterGroup}
    {group_idx : Nat}
    (stamped : final = stampAll senders (receiveAll (fieldMask baseline senders) 0 senders receivers))
    (equal : receivers.length = senders.length) (bounded : senders.length ≤ maxFiltergroupsPerReplicatedState)
    (found : senders[group_idx]? = some sender) :
    ∃ group, final[group_idx]? = some group ∧ sender.ReceivedAs baseline group := by
  have there : group_idx < receivers.length := equal ▸ (List.getElem?_eq_some_iff.mp found).1
  have arrived := receiveAll_at (fieldMask baseline senders) 0 found (List.getElem?_eq_getElem there)
  rw [Nat.zero_add] at arrived
  refine ⟨ReplicatedFilterGroup.setLastModified (ReplicatedFilterGroup.receive (fieldMask baseline senders) group_idx
    sender receivers[group_idx]) sender.explicitClientTargets.lastModified.normalized
    sender.defaultBits.lastModified.normalized,?_,?_,?_,?_,?_⟩
  · rw [stamped]
    unfold stampAll
    rw [List.getElem?_zipWith,found,arrived]
  · intro dirty
    refine (ReplicatedFilterGroup.receive_targets _ _ _ _).trans ?_
    rw [fieldMask_targets baseline bounded found,dirty]
    rfl
  · intro dirty
    refine (ReplicatedFilterGroup.receive_bits _ _ _ _).trans ?_
    rw [fieldMask_bits baseline bounded found,dirty]
    rfl
  · exact SequenceNumber.normalized_sameAs _
  · exact SequenceNumber.normalized_sameAs _

namespace DerivedFragment
variable {schema : FragmentSchema} {fragment : DerivedFragment schema} {mc : MarshalContext}

structure Restored (observe : ∀ i, Observation (schema.type i)) (fragment : DerivedFragment schema) (mc : MarshalContext)
    (decoded : DerivedFragment schema) : Prop where
  contents : ∀ i, fragment.fieldSent mc i = true →
    (observe i).content (decoded.fields i) = (observe i).content (fragment.fields i)
  sequences : ∀ i, ((schema.type i).lastModified (decoded.fields i)).sameAs
    ((schema.type i).lastModified (fragment.fields i)) = true
  groups : ∀ (group_idx : Nat) (sender : ReplicatedFilterGroup), fragment.calculateDefaultBits.filterGroups[group_idx]? = some sender →
    ∃ received, decoded.hub.filterGroups[group_idx]? = some received ∧ sender.ReceivedAs mc.baselineSeq received

-- Some field is written, those that are have a value, and there are no filter
-- groups beyond those that a fresh instance makes for the layout.
structure Transferable (observe : ∀ i, Observation (schema.type i)) (fragment : DerivedFragment schema)
    (mc : MarshalContext) : Prop where
  written : ∃ i, fragment.fieldSent mc i = true
  valued : ∀ i, fragment.fieldSent mc i = true → (observe i).HasValue (fragment.fields i)
  groups : fragment.hub.filterGroups.length ≤ min (nGroups schema) maxFiltergroupsPerReplicatedState

theorem contents_written (written : ∃ i, fragment.fieldSent mc i = true) :
    ∃ contents, fragment.marshalContentsWith mc = some contents := by
  obtain ⟨i,sent⟩ := written
  cases wrote : fragment.marshalContentsWith mc with
  | some contents => exact ⟨contents,rfl⟩
  | none =>
    have unsent := Serialize.ReplicatedState.marshalFields_none.mp wrote i
    have here : fragment.fields.fieldSent (fragment.context mc) i = true := sent
    rw [unsent] at here
    cases here

theorem metadata_received (fragment received : DerivedFragment schema)
    (same : received.hub.filterGroups.length = fragment.calculateDefaultBits.filterGroups.length) :
    ∃ decoded, (∀ rest, received.unmarshalFieldMetadata (fragment.marshalFieldMetadata ++ rest) = .ok ((decoded,true),rest)) ∧
      decoded.hub.filterGroups =
        FilterGroups.stampAll fragment.calculateDefaultBits.filterGroups received.hub.filterGroups ∧
      decoded.fields = stampFields fragment.fields (Serialize.ReplicatedState.fieldOrder schema.toSchema) received.fields := by
  have enough : min (nGroups schema) maxFiltergroupsPerReplicatedState ≤ received.hub.filterGroups.length := by
    rw [same,calculateDefaultBits_length]
    exact Nat.le_max_right _ _
  obtain ⟨stamped,reads,groups⟩ := FilterGroups.metadata_back same
  have header : ∀ rest, received.hub.unmarshalFilterGroupAttributeMetadata
      (fragment.calculateDefaultBits.marshalFilterGroupAttributeMetadata ++ rest) =
        .ok (received.hub.withGroups stamped,rest) := fun rest => Reader.bind_ok (reads rest)
  refine ⟨⟨received.hub.withGroups stamped,_⟩,?_,groups,rfl⟩
  intro rest
  have fields := sequences_back fragment.fields received.fields (Serialize.ReplicatedState.fieldOrder schema.toSchema)
    (fragment.calculateDefaultBits.marshalFilterGroupAttributeMetadata ++ rest)
  unfold unmarshalFieldMetadata marshalFieldMetadata
  rw [List.append_assoc,Reader.bind_ok fields,ReplicatedState.ensureFilterGroups_self enough,Reader.bind_ok (header rest)]
  rfl

theorem groups_received {received decoded : ReplicatedState} {sender : ReplicatedFilterGroup} {group_idx : Nat}
    (attributes : received.filterGroups = FilterGroups.receiveAll
      (FilterGroups.fieldMask baseline fragment.calculateDefaultBits.filterGroups) 0
      fragment.calculateDefaultBits.filterGroups (ReplicatedState.new.ensureFilterGroups (nGroups schema)).filterGroups)
    (stamped : decoded.filterGroups =
      FilterGroups.stampAll fragment.calculateDefaultBits.filterGroups received.filterGroups)
    (equal : fragment.calculateDefaultBits.filterGroups.length = min (nGroups schema) maxFiltergroupsPerReplicatedState)
    (found : fragment.calculateDefaultBits.filterGroups[group_idx]? = some sender) :
    ∃ group, decoded.filterGroups[group_idx]? = some group ∧ sender.ReceivedAs baseline group := by
  rw [attributes] at stamped
  refine FilterGroups.groups_back stamped ?_ fragment.calculateDefaultBits.bounded found
  rw [fresh_length,equal]

theorem stamped_at (sender fields : FragmentFields schema) (i : Fin schema.count) :
    stampFields sender (Serialize.ReplicatedState.fieldOrder schema.toSchema) fields i =
      (schema.type i).setLastModified (fields i) ((schema.type i).lastModified (sender i)).normalized := by
  have order : (Serialize.ReplicatedState.fieldOrder schema.toSchema).Nodup := fieldsOf_flatMap_nodup List.nodup_range
  apply stampFields_at order
  exact List.mem_flatMap.mpr ⟨schema.group i,List.mem_range.mpr (Nat.lt_succ_of_le (schema.toSchema.group_le i)),
    Schema.mem_fieldsOf.mpr rfl⟩

theorem full_reads {observe : ∀ i, Observation (schema.type i)} (transferable : fragment.Transferable observe mc)
    (wrote : fragment.fullMarshal mc = some bytes) :
    ∃ decoded, (∀ rest, (fresh schema).fullUnmarshal (bytes ++ rest) = .ok ((decoded,true),rest)) ∧
      fragment.Restored observe mc decoded := by
  obtain ⟨contents,wrote_contents⟩ := contents_written transferable.written
  unfold fullMarshal at wrote
  obtain ⟨attributes,wrote_attributes,written⟩ := Option.bind_eq_some_iff.mp wrote
  cases written
  rw [wrote_contents,Option.getD_some]
  have equal : fragment.calculateDefaultBits.filterGroups.length = min (nGroups schema) maxFiltergroupsPerReplicatedState := by
    rw [calculateDefaultBits_length]
    exact Nat.max_eq_right transferable.groups
  obtain ⟨fields,reads_contents,arrived⟩ := contents_received observe transferable.valued wrote_contents
  obtain ⟨received,read_any,unread,reads_attributes,groups,whole⟩ := attributes_received fragment fields wrote_attributes
  have same : received.filterGroups.length = fragment.calculateDefaultBits.filterGroups.length := by
    rw [groups,FilterGroups.receiveAll_length,fresh_length,equal]
  obtain ⟨decoded,reads_metadata,stamped,sequenced⟩ := metadata_received fragment
    ⟨received,(groupsWithFields schema).foldl (applyDefaultBits received) fields⟩ same
  have all : ∀ i, decoded.fields i = (schema.type i).setLastModified
      (if bitOf schema received i then (schema.type i).setCurrentValueAsDefault (fields i) else fields i)
      ((schema.type i).lastModified (fragment.fields i)).normalized := by
    intro i
    rw [sequenced,stamped_at]
    exact congrArg (fun field => (schema.type i).setLastModified field _) (applyDefaultBits_all received fields i)
  refine ⟨decoded,?_,?_,?_,?_⟩
  · intro rest
    rw [whole equal] at reads_attributes
    unfold fullUnmarshal
    rw [List.append_assoc,List.append_assoc,Reader.bind_ok (reads_contents _),Reader.bind_ok (reads_attributes _)]
    exact (Reader.bind_ok (reads_metadata rest)).trans (by rw [Bool.true_or]; rfl)
  · intro i sent
    have here := arrived i
    rw [if_pos sent] at here
    rw [all i,(observe i).stampKeeps]
    split
    · rw [(observe i).defaultKeeps _ here.2]
      exact here.1
    · exact here.1
  · intro i
    rw [all i,(observe i).stamped]
    exact SequenceNumber.normalized_sameAs _
  · intro group_idx sender found
    exact groups_received groups stamped equal found

end DerivedFragment

namespace FixedFragment
variable {schema : FixedSchema} {fragment : FixedFragment schema} {mc : MarshalContext}

structure Restored (observe : ∀ i, Observation (schema.type i)) (fragment : FixedFragment schema) (mc : MarshalContext)
    (decoded : FixedFragment schema) : Prop where
  contents : ∀ i, fragment.fieldSent mc i = true →
    (observe i).content (decoded.fields i) = (observe i).content (fragment.fields i)
  sequences : ∀ i, schema.group i < schema.nGroups → ((schema.type i).lastModified (decoded.fields i)).sameAs
    ((schema.type i).lastModified (fragment.fields i)) = true
  whitelists : ∀ group_idx, (fragment.groups group_idx).clientWhitelist.isDirtySince mc.baselineSeq = true →
    (decoded.groups group_idx).whitelist = (fragment.groups group_idx).whitelist
  whitelistSequences : ∀ group_idx, (decoded.groups group_idx).clientWhitelist.lastModified.sameAs
    (fragment.groups group_idx).clientWhitelist.lastModified = true

-- Some field is written, those that are have a value, and groups and fields are
-- no more than their masks have bits for.
structure Transferable (observe : ∀ i, Observation (schema.type i)) (fragment : FixedFragment schema)
    (mc : MarshalContext) : Prop where
  written : ∃ i, fragment.fieldSent mc i = true
  valued : ∀ i, fragment.fieldSent mc i = true → (observe i).HasValue (fragment.fields i)
  groups : schema.nGroups ≤ 64
  fields : ∀ group_idx < schema.nGroups, (schema.toSchema.fieldsOf group_idx).length ≤ 64

theorem client_whitelist_back {size : Nat} (capacity : size < 2^32) {whitelist : List ClientActorHash}
    (fits : whitelist.length ≤ size) (rest : Bytes) :
    unmarshalClientWhitelist size (marshalClientWhitelist size whitelist ++ rest) = .ok (⟨whitelist,fits⟩,rest) := by
  have count : (BitVec.ofNat 32 whitelist.length).toNat = whitelist.length := by
    rw [BitVec.toNat_ofNat]
    exact Nat.mod_eq_of_lt (Nat.lt_of_le_of_lt fits capacity)
  have elements := ReadsBack.times_flatMap whitelist (fun id _ => u64_back id) rest
  unfold unmarshalClientWhitelist marshalClientWhitelist
  rw [if_neg (Nat.not_lt.mpr fits),List.append_assoc,(vlqU32_back _).bind,count,if_neg (Nat.not_lt.mpr fits),
    Reader.bind_ok elements]
  simp only [List.take_of_length_le fits]
  rfl

theorem whitelist_fits (group : FieldGroupState size) : group.whitelist.length ≤ size := by
  unfold FieldGroupState.whitelist
  cases held : group.clientWhitelist.value with
  | none => exact Nat.zero_le size
  | some whitelist => exact group.fits whitelist held

-- The groups with the whitelists of a sender's whose bits are set.
def receiveWhitelists (fragment : FixedFragment schema) (field_mask : BitVec 64)
    (groups : Fin schema.nGroups → FieldGroupState schema.clientWhitelistSize) :
    Fin schema.nGroups → FieldGroupState schema.clientWhitelistSize :=
  applySlots (changeSlot fun group_idx group =>
    group.setWhitelist ⟨(fragment.groups group_idx).whitelist,whitelist_fits (fragment.groups group_idx)⟩)
    (hasBit field_mask) 0 (List.finRange schema.nGroups) groups

theorem whitelists_back (fragment received : FixedFragment schema) (baseline : SequenceNumber) (rest : Bytes) :
    ∃ read_any, received.unmarshalClientWhitelistAttributes (fragment.marshalClientWhitelistAttributes baseline ++ rest) =
      .ok ((⟨fragment.receiveWhitelists (fragment.whitelistMask baseline) received.groups,received.fields⟩,read_any),rest) := by
  unfold marshalClientWhitelistAttributes unmarshalClientWhitelistAttributes
  dsimp only
  split
  · rename_i clean
    have none : fragment.receiveWhitelists 0 received.groups = received.groups := by
      funext group_idx
      refine (applySlots_change _ (hasBit 0) 0 received.groups group_idx (List.nodup_finRange _)).trans ?_
      rw [if_neg]
      simp [hasBit]
    refine ⟨false,?_⟩
    rw [Reader.bind_ok (ReplicatedState.vlq_zero_back rest),clean,none]
    rfl
  · rename_i some_dirty
    have each : ∀ (j : Nat) (group_idx : Fin schema.nGroups), (List.finRange schema.nGroups)[j]? = some group_idx →
        hasBit (fragment.whitelistMask baseline) (0 + j) = true →
        ∀ (groups : Fin schema.nGroups → FieldGroupState schema.clientWhitelistSize) rest, unmarshalWhitelist group_idx groups
          (marshalClientWhitelist schema.clientWhitelistSize (fragment.groups group_idx).whitelist ++ rest) =
          .ok (changeSlot (fun group_idx group =>
            group.setWhitelist ⟨(fragment.groups group_idx).whitelist,whitelist_fits (fragment.groups group_idx)⟩)
              group_idx groups,rest) := by
      intro j group_idx _ _ groups rest
      exact Reader.bind_ok (client_whitelist_back schema.capacity (whitelist_fits (fragment.groups group_idx)) rest)
    refine ⟨true,?_⟩
    rw [List.append_assoc,(vlqU64_back _).bind,if_neg some_dirty,Reader.bind_ok (slots_back received.groups each rest)]
    rfl

theorem whitelist_received (few : schema.nGroups ≤ 64) (groups : Fin schema.nGroups → FieldGroupState schema.clientWhitelistSize)
    (dirty : (fragment.groups group_idx).clientWhitelist.isDirtySince baseline = true) :
    (fragment.receiveWhitelists (fragment.whitelistMask baseline) groups group_idx).whitelist =
      (fragment.groups group_idx).whitelist := by
  have bit : hasBit (fragment.whitelistMask baseline) ((List.finRange schema.nGroups).idxOf group_idx) = true := by
    have inside := group_idx.isLt
    unfold whitelistMask
    rw [List.idxOf_finRange,maskFrom_reads (by omega) (by simpa using few),List.getD_eq_getElem _ _ (by simp)]
    simpa using dirty
  have held : ∀ group : FieldGroupState schema.clientWhitelistSize, ∀ whitelist,
      (group.setWhitelist whitelist).whitelist = whitelist.1 := by
    intro group whitelist
    unfold FieldGroupState.setWhitelist FieldGroupState.whitelist ReplicatedFieldHandler.setValue
    split <;> rfl
  unfold receiveWhitelists
  rw [applySlots_change _ _ 0 groups group_idx (List.nodup_finRange _),Nat.zero_add,
    if_pos ⟨List.mem_finRange group_idx,bit⟩,held]

def stampWhitelists (fragment : FixedFragment schema)
    (groups : Fin schema.nGroups → FieldGroupState schema.clientWhitelistSize) :
    Fin schema.nGroups → FieldGroupState schema.clientWhitelistSize :=
  applySlots (changeSlot fun group_idx group =>
    group.setLastModified (fragment.groups group_idx).clientWhitelist.lastModified.normalized) (fun _ => true) 0
    (List.finRange schema.nGroups) groups

theorem stampWhitelists_at (fragment : FixedFragment schema)
    (groups : Fin schema.nGroups → FieldGroupState schema.clientWhitelistSize) (group_idx : Fin schema.nGroups) :
    fragment.stampWhitelists groups group_idx =
      (groups group_idx).setLastModified (fragment.groups group_idx).clientWhitelist.lastModified.normalized := by
  unfold stampWhitelists
  rw [applySlots_change _ _ 0 groups group_idx (List.nodup_finRange _),if_pos ⟨List.mem_finRange group_idx,rfl⟩]

theorem metadata_back (fragment received : FixedFragment schema) (rest : Bytes) :
    received.unmarshalMetadataSequences (fragment.marshalMetadataSequences ++ rest) =
      .ok ((⟨fragment.stampWhitelists received.groups,
        stampFields fragment.fields (registeredFields schema) received.fields⟩,true),rest) := by
  have each : ∀ (j : Nat) (group_idx : Fin schema.nGroups), (List.finRange schema.nGroups)[j]? = some group_idx →
      (fun _ => true) (0 + j) = true →
      ∀ (groups : Fin schema.nGroups → FieldGroupState schema.clientWhitelistSize) rest,
        unmarshalWhitelistSequence group_idx groups (fragment.marshalWhitelistSequence group_idx ++ rest) =
          .ok (changeSlot (fun group_idx group =>
            group.setLastModified (fragment.groups group_idx).clientWhitelist.lastModified.normalized) group_idx groups,rest) := by
    intro j group_idx _ _ groups rest
    exact Reader.bind_ok (SequenceNumber.sequence_back _ rest)
  have groups : readSlots unmarshalWhitelistSequence (fun _ => true) 0 (List.finRange schema.nGroups) received.groups
      (writeSlots fragment.marshalWhitelistSequence (fun _ => true) 0 (List.finRange schema.nGroups) ++ rest) =
        .ok (fragment.stampWhitelists received.groups,rest) := slots_back _ each rest
  unfold unmarshalMetadataSequences marshalMetadataSequences
  rw [List.append_assoc,Reader.bind_ok (sequences_back fragment.fields received.fields (registeredFields schema) _),
    Reader.bind_ok groups]
  rfl

theorem contents_written {i : Fin schema.count}
    (small : ∀ group_idx < schema.nGroups, (schema.toSchema.fieldsOf group_idx).length ≤ 64)
    (sent : fragment.fieldSent mc i = true) : ∃ contents, fragment.marshalFixedContents mc = some contents := by
  have inside : schema.group i < schema.nGroups := by
    unfold fieldSent at sent
    rw [Bool.and_eq_true,Bool.and_eq_true,decide_eq_true_iff] at sent
    exact sent.1.1
  have present : (fragment.groupBody mc (schema.group i)).isSome = true := by
    cases body : fragment.groupBody mc (schema.group i) with
    | some body => rfl
    | none =>
      rw [groupBody_none body (small _ inside)] at sent
      cases sent
  have any : (fragment.groupPresent mc).any (fun present => present) = true := by
    rw [List.any_eq_true]
    exact ⟨true,List.mem_map.mpr ⟨schema.group i,List.mem_range.mpr inside,present⟩,rfl⟩
  exact ⟨_,if_pos any⟩

theorem stamped_at (sender fields : FragmentFields schema.toFragmentSchema) {i : Fin schema.count}
    (inside : schema.group i < schema.nGroups) : stampFields sender (registeredFields schema) fields i =
      (schema.type i).setLastModified (fields i) ((schema.type i).lastModified (sender i)).normalized := by
  have order : (registeredFields schema).Nodup := fieldsOf_flatMap_nodup List.nodup_range
  apply stampFields_at order
  exact List.mem_flatMap.mpr ⟨schema.group i,List.mem_range.mpr inside,Schema.mem_fieldsOf.mpr rfl⟩

theorem full_reads {observe : ∀ i, Observation (schema.type i)} (transferable : fragment.Transferable observe mc) :
    ∃ decoded, (∀ rest, (fresh schema).fullUnmarshal (fragment.fullMarshal mc ++ rest) = .ok ((decoded,true),rest)) ∧
      fragment.Restored observe mc decoded := by
  obtain ⟨i,sent⟩ := transferable.written
  obtain ⟨contents,wrote⟩ := contents_written transferable.fields sent
  obtain ⟨fields,reads,arrived⟩ := contents_received transferable.fields transferable.valued wrote
  refine ⟨⟨fragment.stampWhitelists (fragment.receiveWhitelists (fragment.whitelistMask mc.baselineSeq) (fresh schema).groups),
    stampFields fragment.fields (registeredFields schema) fields⟩,?_,?_,?_,?_,?_⟩
  · intro rest
    obtain ⟨read_any,attributes⟩ := whitelists_back fragment ⟨(fresh schema).groups,fields⟩ mc.baselineSeq
      (fragment.marshalMetadataSequences ++ rest)
    unfold fullUnmarshal fullMarshal
    rw [wrote,Option.getD_some,List.append_assoc,List.append_assoc,Reader.bind_ok (reads _),Reader.bind_ok attributes,
      Reader.bind_ok (metadata_back fragment _ rest),Bool.true_or]
    rfl
  · intro i sent
    have inside : schema.group i < schema.nGroups := by
      unfold fieldSent at sent
      rw [Bool.and_eq_true,Bool.and_eq_true,decide_eq_true_iff] at sent
      exact sent.1.1
    have here := arrived i
    rw [if_pos sent] at here
    dsimp only
    rw [stamped_at _ _ inside,(observe i).stampKeeps]
    exact here
  · intro i inside
    dsimp only
    rw [stamped_at _ _ inside,(observe i).stamped]
    exact SequenceNumber.normalized_sameAs _
  · intro group_idx dirty
    dsimp only
    rw [stampWhitelists_at]
    exact whitelist_received transferable.groups _ dirty
  · intro group_idx
    dsimp only
    rw [stampWhitelists_at]
    exact SequenceNumber.normalized_sameAs _

end FixedFragment

section Layouts
open DerivedFragment FixedFragment

def observeBytes (count : Nat) (group : Fin count → Nat) (i : Fin count) : Observation ((byteFields count group).type i) :=
  (PlainState.byteField none).observation

def wideBytes : Bytes := (wideState.fullMarshal wideContext).getD []

def oneByte : FragmentSchema := byteFields 1 fun _ => 0

end Layouts
end NwNetwork.Hub
