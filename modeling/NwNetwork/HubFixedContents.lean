import NwNetwork.HubFixedState
import NwNetwork.HubDerivedContents
import Mathlib.Order.Fin.Basic

namespace NwNetwork.Hub
open WireReader MaskedSlots Serialize

section GroupPresentFlags

theorem byte_flags {flags : List Bool} (fits : flags.length ≤ 8) :
    (List.range flags.length).map (ByteBits.hasBit (ByteBits.maskFrom 0 0 flags)) = flags := by
  apply List.ext_getElem
  · simp
  · intro bit _ inside
    rw [List.getElem_map,List.getElem_range,ByteBits.flags_read fits (Nat.lt_of_lt_of_le inside fits)]
    simp [inside]

theorem flag_bytes_back {count : Nat} {flags : List Bool} (fits : flags.length ≤ 8*count) (rest : Bytes) :
    readFlagBytes count flags.length (writeFlagBytes count flags ++ rest) = .ok (flags,rest) := by
  induction count generalizing flags with
  | zero =>
    have none : flags = [] := List.eq_nil_of_length_eq_zero (by omega)
    rw [none]
    rfl
  | succ count ih =>
    have tail := ih (show (flags.drop 8).length ≤ 8*count by rw [List.length_drop]; omega)
    have head := byte_flags (List.length_take_le 8 flags)
    rw [List.length_drop] at tail
    rw [List.length_take] at head
    unfold readFlagBytes writeFlagBytes
    rw [List.append_assoc,(u8_back _).bind,Reader.bind_ok tail,head,List.take_append_drop]
    rfl

theorem group_present_flags_back (group_present : List Bool) (rest : Bytes) :
    readGroupPresentFlags group_present.length (writeGroupPresentFlags group_present ++ rest) = .ok (group_present,rest) := by
  apply flag_bytes_back
  unfold flagByteCount
  omega

end GroupPresentFlags

namespace FixedFragment
variable {schema : FixedSchema} {fragment : FixedFragment schema} {mc : MarshalContext}

def fieldDirty (fragment : FixedFragment schema) (mc : MarshalContext) (i : Fin schema.count) : Bool :=
  (schema.type i).isDirty (fragment.fields i) ((fragment.context mc).baselineFor (schema.group i))

-- A field is written when its group is there and is sent, and it is dirty itself.
def fieldSent (fragment : FixedFragment schema) (mc : MarshalContext) (i : Fin schema.count) : Bool :=
  decide (schema.group i < schema.nGroups) && (fragment.context mc).shouldSend (schema.group i) && fragment.fieldDirty mc i

def contextMask (fragment : FixedFragment schema) (mc : MarshalContext) (group_idx : Nat) : BitVec 64 :=
  fragment.groupMask group_idx ((fragment.context mc).baselineFor group_idx)

theorem contextMask_bit (fragment : FixedFragment schema) (mc : MarshalContext) (small : (schema.toSchema.fieldsOf (schema.group i)).length ≤ 64) :
    hasBit (fragment.contextMask mc (schema.group i)) (fieldIndex schema.toFragmentSchema i) = fragment.fieldDirty mc i := by
  have member : i ∈ schema.toSchema.fieldsOf (schema.group i) := Schema.mem_fieldsOf.mpr rfl
  have inside : fieldIndex schema.toFragmentSchema i < (schema.toSchema.fieldsOf (schema.group i)).length :=
    List.idxOf_lt_length_of_mem member
  have here : (schema.toSchema.fieldsOf (schema.group i))[fieldIndex schema.toFragmentSchema i]? = some i :=
    List.getElem?_eq_some_iff.mpr ⟨inside,List.getElem_idxOf inside⟩
  unfold contextMask groupMask
  rw [maskFrom_reads (by omega) (by rw [List.length_map]; exact small),List.getD_eq_getElem?_getD,List.getElem?_map,here]
  rfl

theorem groupBody_some (wrote : fragment.groupBody mc group_idx = some body) :
    (fragment.context mc).shouldSend group_idx = true ∧ fragment.contextMask mc group_idx ≠ 0 ∧
      body = marshalVlqU64 (fragment.contextMask mc group_idx) ++
        writeSlots (fun i => (schema.type i).marshalSince (fragment.fields i) ((fragment.context mc).baselineFor group_idx))
          (hasBit (fragment.contextMask mc group_idx)) 0 (schema.toSchema.fieldsOf group_idx) := by
  unfold groupBody at wrote
  split at wrote
  · rename_i send
    unfold marshalFields at wrote
    dsimp only at wrote
    split at wrote
    · cases wrote
    · rename_i some_dirty
      cases wrote
      exact ⟨send,some_dirty,rfl⟩
  · cases wrote

theorem groupBody_none (none : fragment.groupBody mc (schema.group i) = none)
    (small : (schema.toSchema.fieldsOf (schema.group i)).length ≤ 64) : fragment.fieldSent mc i = false := by
  unfold fieldSent
  unfold groupBody at none
  split at none
  · unfold marshalFields at none
    dsimp only at none
    split at none
    · rename_i send clean
      have bit := contextMask_bit fragment mc small
      unfold contextMask at bit
      rw [clean] at bit
      rw [← bit]
      simp [hasBit]
    · cases none
  · rename_i hidden
    rw [Bool.eq_false_iff.mpr hidden,Bool.and_false,Bool.false_and]

-- What a group's body leaves of the fields it is read into.
def groupReceived (fragment : FixedFragment schema) (mc : MarshalContext) (decoded : FragmentFields schema.toFragmentSchema)
    (group_idx : Nat) (fields : FragmentFields schema.toFragmentSchema) : FragmentFields schema.toFragmentSchema :=
  applySlots (changeSlot fun i _ => decoded i) (hasBit (fragment.contextMask mc group_idx)) 0
    (schema.toSchema.fieldsOf group_idx) fields

theorem groupReceived_at (decoded fields : FragmentFields schema.toFragmentSchema) (group_idx : Nat) (i : Fin schema.count) :
    fragment.groupReceived mc decoded group_idx fields i =
      if i ∈ schema.toSchema.fieldsOf group_idx ∧
          hasBit (fragment.contextMask mc group_idx) (0 + (schema.toSchema.fieldsOf group_idx).idxOf i) = true then decoded i
      else fields i :=
  applySlots_change (fun i _ => decoded i) _ 0 fields i (fieldsOf_nodup group_idx)

theorem group_back (decoded fields : FragmentFields schema.toFragmentSchema)
    (wrote : fragment.groupBody mc group_idx = some body)
    (inside : group_idx < schema.nGroups) (small : (schema.toSchema.fieldsOf group_idx).length ≤ 64)
    (back : ∀ i, fragment.fieldSent mc i = true → ∀ rest, (schema.type i).unmarshal
      ((schema.type i).marshalSince (fragment.fields i) ((fragment.context mc).baselineFor (schema.group i)) ++ rest) =
        .ok (decoded i,rest)) (rest : Bytes) :
    unmarshalFields group_idx fields (body ++ rest) =
      .ok ((fragment.groupReceived mc decoded group_idx fields,true),rest) := by
  obtain ⟨send,some_dirty,rfl⟩ := groupBody_some wrote
  have some_field : schema.toSchema.fieldsOf group_idx ≠ [] := by
    intro none
    apply some_dirty
    unfold contextMask groupMask
    rw [none]
    rfl
  have each : ∀ j i, (schema.toSchema.fieldsOf group_idx)[j]? = some i →
      hasBit (fragment.contextMask mc group_idx) (0 + j) = true →
      ∀ fields rest, unmarshalField i fields
        ((schema.type i).marshalSince (fragment.fields i) ((fragment.context mc).baselineFor group_idx) ++ rest) =
          .ok (changeSlot (fun i _ => decoded i) i fields,rest) := by
    intro j i found set fields rest
    have own : schema.group i = group_idx := Schema.mem_fieldsOf.mp (List.mem_of_getElem? found)
    subst own
    obtain ⟨within,same⟩ := List.getElem?_eq_some_iff.mp found
    have place : fieldIndex schema.toFragmentSchema i = j := by
      have distinct : (schema.toSchema.fieldsOf (schema.group i)).Nodup := fieldsOf_nodup (schema.group i)
      have index := distinct.idxOf_getElem j within
      rw [same] at index
      exact index
    have dirty : fragment.fieldDirty mc i = true := by
      rw [← contextMask_bit fragment mc small,place,← Nat.zero_add j]
      exact set
    have sent : fragment.fieldSent mc i = true := by
      unfold fieldSent
      rw [decide_eq_true inside,send,dirty]
      rfl
    exact Reader.bind_ok (back i sent rest)
  unfold unmarshalFields
  rw [if_neg some_field,List.append_assoc,(vlqU64_back _).bind,if_neg some_dirty,Reader.bind_ok (slots_back fields each rest)]
  rfl

theorem groupPresent_getD (inside : group_idx < schema.nGroups) :
    (fragment.groupPresent mc).getD group_idx false = (fragment.groupBody mc group_idx).isSome := by
  unfold groupPresent
  rw [List.getD_eq_getElem _ _ (by simpa using inside)]
  simp

def groupRead (fragment : FixedFragment schema) (mc : MarshalContext) (decoded : FragmentFields schema.toFragmentSchema)
    (group_idx : Nat) (state : FragmentFields schema.toFragmentSchema × Bool) : FragmentFields schema.toFragmentSchema × Bool :=
  (fragment.groupReceived mc decoded group_idx state.1,true)

theorem groupRead_at (decoded : FragmentFields schema.toFragmentSchema) (group_idx : Nat)
    (state : FragmentFields schema.toFragmentSchema × Bool) (i : Fin schema.count) :
    (fragment.groupRead mc decoded group_idx state).1 i =
      if i ∈ schema.toSchema.fieldsOf group_idx ∧
          hasBit (fragment.contextMask mc group_idx) (0 + (schema.toSchema.fieldsOf group_idx).idxOf i) = true then decoded i
      else state.1 i := groupReceived_at decoded state.1 group_idx i

-- The fields after all groups there are have been read.
def received (fragment : FixedFragment schema) (mc : MarshalContext) (decoded : FragmentFields schema.toFragmentSchema) :
    FragmentFields schema.toFragmentSchema × Bool :=
  applySlots (fragment.groupRead mc decoded) ((fragment.groupPresent mc).getD · false) 0 (List.range schema.nGroups)
    (Serialize.ReplicatedState.fresh schema.toSchema,false)

theorem received_at (decoded : FragmentFields schema.toFragmentSchema) (i : Fin schema.count)
    (small : ∀ group_idx < schema.nGroups, (schema.toSchema.fieldsOf group_idx).length ≤ 64) :
    (fragment.received mc decoded).1 i = if fragment.fieldSent mc i then decoded i else (schema.type i).initial := by
  have others : ∀ group_idx, group_idx ≠ schema.group i → ∀ state : FragmentFields schema.toFragmentSchema × Bool,
      (fragment.groupRead mc decoded group_idx state).1 i = state.1 i := by
    intro group_idx other state
    rw [groupRead_at,if_neg fun both => other (Schema.mem_fieldsOf.mp both.1).symm]
  have own : ∀ before after : FragmentFields schema.toFragmentSchema × Bool, before.1 i = after.1 i →
      (fragment.groupRead mc decoded (schema.group i) before).1 i =
        (fragment.groupRead mc decoded (schema.group i) after).1 i := by
    intro before after same
    rw [groupRead_at,groupRead_at,same]
  have distinct : (List.range schema.nGroups).Nodup := List.nodup_range
  have viewed := applySlots_view (fun state : FragmentFields schema.toFragmentSchema × Bool => state.1 i) (schema.group i)
    ((fragment.groupPresent mc).getD · false) 0 (Serialize.ReplicatedState.fresh schema.toSchema,false) others own distinct
  have member : i ∈ schema.toSchema.fieldsOf (schema.group i) := Schema.mem_fieldsOf.mpr rfl
  refine viewed.trans ?_
  by_cases inside : schema.group i < schema.nGroups
  · have place : (List.range schema.nGroups).idxOf (schema.group i) = schema.group i := by
      have index := distinct.idxOf_getElem (schema.group i) (by simpa using inside)
      rwa [List.getElem_range] at index
    dsimp only
    rw [place,Nat.zero_add,groupPresent_getD inside]
    cases present : fragment.groupBody mc (schema.group i) with
    | none =>
      rw [groupBody_none present (small _ inside)]
      simp
      rfl
    | some body =>
      obtain ⟨send,_,_⟩ := groupBody_some present
      have sent : fragment.fieldSent mc i = fragment.fieldDirty mc i := by
        unfold fieldSent
        rw [decide_eq_true inside,send]
        rfl
      have bit := contextMask_bit fragment mc (small _ inside)
      unfold fieldIndex at bit
      rw [if_pos ⟨List.mem_range.mpr inside,rfl⟩,groupRead_at,Nat.zero_add,bit,sent]
      simp only [member,true_and]
      rfl
  · rw [if_neg fun both => inside (List.mem_range.mp both.1)]
    unfold fieldSent
    rw [decide_eq_false inside]
    rfl

theorem fixed_reads (decoded : FragmentFields schema.toFragmentSchema)
    (small : ∀ group_idx < schema.nGroups, (schema.toSchema.fieldsOf group_idx).length ≤ 64)
    (back : ∀ i, fragment.fieldSent mc i = true → ∀ rest, (schema.type i).unmarshal
      ((schema.type i).marshalSince (fragment.fields i) ((fragment.context mc).baselineFor (schema.group i)) ++ rest) =
        .ok (decoded i,rest))
    (wrote : fragment.marshalFixedContents mc = some bytes) (rest : Bytes) :
    (fresh schema).unmarshalFixedContents (bytes ++ rest) =
      .ok ((⟨(fresh schema).groups,fun i => if fragment.fieldSent mc i then decoded i else (schema.type i).initial⟩,true),rest) := by
  have count : (fragment.groupPresent mc).length = schema.nGroups := by
    unfold groupPresent
    rw [List.length_map,List.length_range]
  have each : ∀ j group_idx, (List.range schema.nGroups)[j]? = some group_idx →
      (fragment.groupPresent mc).getD (0 + j) false = true →
      ∀ (state : FragmentFields schema.toFragmentSchema × Bool) rest, unmarshalPresent group_idx state
        ((fragment.groupBody mc group_idx).getD [] ++ rest) =
          .ok (fragment.groupRead mc decoded group_idx state,rest) := by
    intro j group_idx found present state rest
    obtain ⟨within,same⟩ := List.getElem?_eq_some_iff.mp found
    rw [List.getElem_range] at same
    subst same
    have inside : j < schema.nGroups := by simpa using within
    rw [Nat.zero_add,groupPresent_getD inside] at present
    obtain ⟨body,wrote⟩ := Option.isSome_iff_exists.mp present
    have read := group_back decoded state.1 wrote inside (small j inside) back rest
    unfold unmarshalPresent
    rw [wrote,Option.getD_some,Reader.bind_ok read,Bool.or_true]
    rfl
  unfold marshalFixedContents at wrote
  dsimp only at wrote
  split at wrote
  · rename_i some_present
    cases wrote
    have flags := group_present_flags_back (fragment.groupPresent mc)
    rw [count] at flags
    have all : readSlots unmarshalPresent ((fragment.groupPresent mc).getD · false) 0 (List.range schema.nGroups)
        ((fresh schema).fields,false)
        (writeSlots (fun group_idx => (fragment.groupBody mc group_idx).getD []) ((fragment.groupPresent mc).getD · false) 0
          (List.range schema.nGroups) ++ rest) = .ok (fragment.received mc decoded,rest) := slots_back _ each rest
    have marked : (fragment.received mc decoded).2 = true := by
      rw [List.any_eq_true] at some_present
      obtain ⟨present,member,set⟩ := some_present
      obtain ⟨j,within,rfl⟩ := List.mem_iff_getElem.mp member
      apply applySlots_marks (fun _ _ => rfl)
      refine .inr ⟨j,by rw [List.length_range,← count]; exact within,?_⟩
      rw [Nat.zero_add,List.getD_eq_getElem _ _ within]
      exact set
    unfold unmarshalFixedContents
    rw [List.append_assoc,Reader.bind_ok (flags _),Reader.bind_ok all]
    have fields : (fragment.received mc decoded).1 = fun i => if fragment.fieldSent mc i then decoded i else (schema.type i).initial :=
      funext fun i => received_at decoded i small
    have whole : fragment.received mc decoded =
        (fun i => if fragment.fieldSent mc i then decoded i else (schema.type i).initial,true) := Prod.ext fields marked
    rw [whole]
    rfl
  · cases wrote

theorem contents_received {observe : ∀ i, Observation (schema.type i)}
    (small : ∀ group_idx < schema.nGroups, (schema.toSchema.fieldsOf group_idx).length ≤ 64)
    (valued : ∀ i, fragment.fieldSent mc i = true → (observe i).HasValue (fragment.fields i))
    (wrote : fragment.marshalFixedContents mc = some bytes) :
    ∃ decoded : FragmentFields schema.toFragmentSchema,
      (∀ rest, (fresh schema).unmarshalFixedContents (bytes ++ rest) = .ok ((⟨(fresh schema).groups,decoded⟩,true),rest)) ∧
      ∀ i, if fragment.fieldSent mc i then (observe i).content (decoded i) = (observe i).content (fragment.fields i)
        else decoded i = (schema.type i).initial := by
  have reading : ∀ i, ∃ field : (schema.type i).Handler, fragment.fieldSent mc i = true →
      (∀ rest, (schema.type i).unmarshal ((schema.type i).marshalSince (fragment.fields i)
        ((fragment.context mc).baselineFor (schema.group i)) ++ rest) = .ok (field,rest)) ∧
        (observe i).content field = (observe i).content (fragment.fields i) := by
    intro i
    by_cases sent : fragment.fieldSent mc i = true
    · obtain ⟨field,reads,same,_⟩ := (observe i).readsBackSince (fragment.fields i) _ (valued i sent)
      exact ⟨field,fun _ => ⟨reads,same⟩⟩
    · exact ⟨(schema.type i).initial,fun wrong => absurd wrong sent⟩
  choose field reads using reading
  refine ⟨_,fun rest => fixed_reads field small (fun i sent => (reads i sent).1) wrote rest,fun i => ?_⟩
  by_cases sent : fragment.fieldSent mc i = true
  · rw [if_pos sent,if_pos sent]
    exact (reads i sent).2
  · rw [if_neg sent,if_neg sent]

-- Whatever a fixed state writes of its contents, a fresh one reads it and
-- nothing more, and has then the fields that were written.
theorem fixed_contents_round_trip (observe : ∀ i, Observation (schema.type i)) (fragment : FixedFragment schema)
    (mc : MarshalContext)
    (small : ∀ group_idx < schema.nGroups, (schema.toSchema.fieldsOf group_idx).length ≤ 64)
    (valued : ∀ i, fragment.fieldDirty mc i = true → (observe i).HasValue (fragment.fields i))
    (bytes : Bytes) (wrote : fragment.marshalFixedContents mc = some bytes) :
    ∃ decoded : FragmentFields schema.toFragmentSchema,
      (∀ rest, (fresh schema).unmarshalFixedContents (bytes ++ rest) = .ok ((⟨(fresh schema).groups,decoded⟩,true),rest)) ∧
      ∀ i, if fragment.fieldSent mc i then (observe i).content (decoded i) = (observe i).content (fragment.fields i)
        else decoded i = (schema.type i).initial :=
  contents_received small (fun i sent => valued i (Bool.and_eq_true_iff.mp sent).2) wrote

section Layouts
open DerivedFragment

-- Nine groups of which the first has three fields and the last has one; group 4
-- is hidden from client 7.
def nineGroups : FixedSchema where
  toFragmentSchema := byteFields 5 fun i => if i.val < 3 then 0 else if i.val = 3 then 4 else 8
  nGroups := 9
  clientWhitelistSize := 2
  capacity := by decide

def nineState : FixedFragment nineGroups where
  groups group_idx := if group_idx.val = 4 then ⟨⟨some [1],.validNonSequence,none,false⟩,by simp [nineGroups]⟩ else .default 2
  fields i := if i.val = 1 then byteValue none .invalid else byteValue (some (UInt8.ofNat i.val)) (.seq 4)

def nineContext : MarshalContext := ⟨.seq 3,some 7,some [.seq 1]⟩

theorem fixed_contents_round_trip_nine :
    ∃ decoded : FragmentFields nineGroups.toFragmentSchema,
      (∀ rest, (fresh nineGroups).unmarshalFixedContents ([1,1,5,0,2,1,4] ++ rest) =
        .ok ((⟨(fresh nineGroups).groups,decoded⟩,true),rest)) ∧
      ∀ i, if nineState.fieldSent nineContext i then
          (decoded i : ReplicatedFieldHandler UInt8).value = (nineState.fields i : ReplicatedFieldHandler UInt8).value
        else decoded i = (nineGroups.type i).initial := by
  have small : ∀ group_idx < nineGroups.nGroups, (nineGroups.toSchema.fieldsOf group_idx).length ≤ 64 := by decide
  have valued : ∀ i : Fin nineGroups.count, nineState.fieldDirty nineContext i = true →
      (nineState.fields i : ReplicatedFieldHandler UInt8).value.isSome = true := by decide
  let observe : ∀ i, Observation (nineGroups.type i) := fun _ => (PlainState.byteField none).observation
  exact fixed_contents_round_trip observe nineState nineContext small valued _ (by decide)

end Layouts
end FixedFragment
end NwNetwork.Hub
