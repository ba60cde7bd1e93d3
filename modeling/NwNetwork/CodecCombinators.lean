import NwNetwork.ByteBits
import NwNetwork.ContainerWire
import NwNetwork.OrderedMap
import NwNetwork.WireFormat

namespace NwNetwork.Serialize
open WireReader ByteBits

-- Marshaling is `none` where the source panics.
abbrev FieldCodec (α : Type) := WireFormat MarshalerError α

-- Values that marshal themselves.
def defaultMarshaler (marshal : α → Bytes) (unmarshal : Read α) : FieldCodec α := ⟨fun value => some (marshal value),unmarshal⟩

def unmarshalWireCount (capacity : Nat) : Read Nat := do
  let len ← unmarshalVlqU32
  checkCount len.toNat capacity
  pure len.toNat

def sequenceCodec (M : FieldCodec α) : FieldCodec (List α) where
  write value := do
    let count ← marshalWireCount value.length
    let items ← M.writeAll value
    pure (count ++ items)
  read := do
    let len ← unmarshalWireCount wireVecCap
    Reader.times M.read len

-- An `ArrayVec` has at most as many elements as a u32 counts.
structure ArrayCapacity where
  size : Nat
  counted : size < 2^32

structure ArrayVec (α : Type) (N : ArrayCapacity) where
  items : List α
  fits : items.length ≤ N.size

-- No more elements are read than fit.
def arrayVecCodec (M : FieldCodec α) (N : ArrayCapacity) : FieldCodec (ArrayVec α N) where
  write value := do
    let count ← marshalWireCount value.items.length
    let items ← M.writeAll value.items
    pure (count ++ items)
  read := do
    let len ← unmarshalWireCount N.size
    let items ← Reader.times M.read len
    pure ⟨items.take N.size,List.length_take_le N.size items⟩

def mapSequenceCodec [DecidableEq K] (KM : FieldCodec K) (VM : FieldCodec V) : FieldCodec (OrderedMap K V) where
  write value := do
    let count ← marshalWireCount value.entries.length
    let entries ← (KM.pair VM).writeAll value.entries
    pure (count ++ entries)
  read := do
    let len ← unmarshalWireCount wireVecCap
    let entries ← Reader.times (KM.pair VM).read len
    pure (OrderedMap.ofEntries entries)

def optionCodec (M : FieldCodec α) : FieldCodec (Option α) where
  write
    | some inner => do
      let bytes ← M.write inner
      pure (writeU8 1 ++ bytes)
    | none => some (writeU8 0)
  read := do
    let discriminant ← readU8
    if discriminant = 0 then pure none
    else if discriminant = 1 then do
      let inner ← M.read
      pure (some inner)
    else Reader.fail (.invalidDiscriminant discriminant)

def writeRaw (value : Bool) : Bytes := writeU8 (if value then 1 else 0)

def readRaw : Read Bool := do
  let byte ← readU8
  if byte = 0 then pure false
  else if byte = 1 then pure true
  else Reader.fail (.invalidDiscriminant byte)

def boolMarshaler : FieldCodec Bool := defaultMarshaler writeRaw readRaw

structure TupleMember where
  Value : Type
  codec : FieldCodec Value

def tupleCodec (members : List TupleMember) : FieldCodec (Tuple TupleMember.Value members) :=
  WireFormat.sequence TupleMember.codec members

structure DefaultMember extends TupleMember where
  default : Value
  equal : DecidableEq Value

namespace DefaultMember

def isPresent (m : DefaultMember) (value : m.Value) : Bool :=
  letI := m.equal
  decide (value ≠ m.default)

def payload (m : DefaultMember) (present : Bool) : FieldCodec m.Value := m.codec.present present m.default

end DefaultMember

-- The presence of every member goes before the payloads.
def defaultOmittedTupleCodec (members : List DefaultMember) : FieldCodec (Tuple (fun m => m.Value) members) where
  write value := do
    let present := value.map DefaultMember.isPresent
    let flags ← (WireFormat.sequence (fun _ => boolMarshaler) members).write present
    let payloads ← (WireFormat.sequenceBy DefaultMember.payload members present).write value
    pure (flags ++ payloads)
  read := do
    let present ← (WireFormat.sequence (fun _ => boolMarshaler) members).read
    (WireFormat.sequenceBy DefaultMember.payload members present).read

inductive BitMaskMember where
  | required (Value : Type) (codec : FieldCodec Value)
  | masked (Value : Type) (codec : FieldCodec Value) (MASK : UInt8)

namespace BitMaskMember

def Value : BitMaskMember → Type
  | required T _ => T
  | masked T _ _ => Option T

def reconcileMask : (m : BitMaskMember) → m.Value → UInt8 → UInt8
  | required _ _,_,mask => mask
  | masked _ _ MASK,some _,mask => mask ||| MASK
  | masked _ _ MASK,none,mask => mask &&& ~~~MASK

def marshalMasked : (m : BitMaskMember) → UInt8 → m.Value → Option Bytes
  | required _ M,_,value => M.write value
  | masked _ M MASK,mask,value =>
    if mask &&& MASK != 0 then
      match value with
      | some inner => M.write inner
      | none => none
    else some []

def unmarshalMasked : (m : BitMaskMember) → UInt8 → Read m.Value
  | required _ M,_ => M.read
  | masked _ M MASK,mask =>
    if mask &&& MASK != 0 then do
      let inner ← M.read
      pure (some inner)
    else pure none

def behindMask (mask : UInt8) (m : BitMaskMember) : FieldCodec m.Value := ⟨m.marshalMasked mask,m.unmarshalMasked mask⟩

def reconcileAll : (members : List BitMaskMember) → Tuple Value members → UInt8 → UInt8
  | [],_,mask => mask
  | m :: members,values,mask => reconcileAll members values.2 (m.reconcileMask values.1 mask)

end BitMaskMember

-- The mask is the first member of the tuple.
def bitMaskTupleCodec (members : List BitMaskMember) : FieldCodec (UInt8 × Tuple BitMaskMember.Value members) where
  write value := do
    let mask := BitMaskMember.reconcileAll members value.2 value.1
    let payloads ← (WireFormat.sequence (BitMaskMember.behindMask mask) members).write value.2
    pure (writeU8 mask ++ payloads)
  read := do
    let mask ← readU8
    let values ← (WireFormat.sequence (BitMaskMember.behindMask mask) members).read
    pure (mask,values)

theorem default_round_trips {marshal : α → Bytes} {unmarshal : Read α} (back : ReadsBack marshal unmarshal value) :
    (defaultMarshaler marshal unmarshal).RoundTrips value := ⟨marshal value,rfl,back⟩

theorem default_rewrites {marshal : α → Bytes} {unmarshal : Read α} (back_only : ReadsOnly marshal unmarshal) :
    (defaultMarshaler marshal unmarshal).Rewrites := fun _ value _ ran => ⟨marshal value,rfl,back_only ran⟩

section Counted
variable {α K V : Type} {M : FieldCodec α}

theorem wire_count (room : len ≤ capacity) (counted : len < 2^32) :
    ∃ count, marshalWireCount len = some count ∧ ∀ rest, unmarshalWireCount capacity (count ++ rest) = .ok (len,rest) := by
  refine ⟨marshalVlqU32 (BitVec.ofNat 32 len),if_pos counted,?_⟩
  intro rest
  unfold unmarshalWireCount
  rw [Reader.bind_ok (vlqU32_back _ rest),count_size counted,Reader.bind_ok (checked room rest)]
  rfl

theorem count_refused (read : unmarshalVlqU32 bytes = .ok (len,rest)) (above : capacity < len.toNat) :
    unmarshalWireCount capacity bytes = .error (.containerOverflow len.toNat capacity) := by
  have refused : checkCount len.toNat capacity rest = .error (.containerOverflow len.toNat capacity) := by
    unfold checkCount
    rw [if_pos above]
    rfl
  unfold unmarshalWireCount
  rw [Reader.bind_ok read]
  exact Reader.bind_error refused

-- A count and as many elements, whatever is made of them in the end.
theorem counted_round_trips {values : List α} (all : ∀ value ∈ values, M.RoundTrips value) (room : values.length ≤ capacity)
    (counted : values.length < 2^32) : ∃ count items, marshalWireCount values.length = some count ∧
      M.writeAll values = some items ∧ ∀ rest,
        unmarshalWireCount capacity (count ++ items ++ rest) = .ok (values.length,items ++ rest) ∧
          Reader.times M.read values.length (items ++ rest) = .ok (values,rest) := by
  obtain ⟨count,wrote_count,read_count⟩ := wire_count room counted
  obtain ⟨items,wrote_items,read_items⟩ := WireFormat.times_roundTrips all
  refine ⟨count,items,wrote_count,wrote_items,?_⟩
  intro rest
  rw [List.append_assoc]
  exact ⟨read_count _,read_items rest⟩

theorem vec_cap_counted : wireVecCap < 2^32 := by decide

theorem sequence_round_trips {value : List α} (all : ∀ item ∈ value, M.RoundTrips item) (room : value.length ≤ wireVecCap) :
    (sequenceCodec M).RoundTrips value := by
  obtain ⟨count,items,wrote_count,wrote_items,read⟩ := counted_round_trips all room (Nat.lt_of_le_of_lt room vec_cap_counted)
  refine ⟨count ++ items,by simp [sequenceCodec,wrote_count,wrote_items],?_⟩
  intro rest
  exact (Reader.bind_ok (read rest).1).trans (read rest).2

theorem array_vec_round_trips {N : ArrayCapacity} {value : ArrayVec α N} (all : ∀ item ∈ value.items, M.RoundTrips item) :
    (arrayVecCodec M N).RoundTrips value := by
  obtain ⟨elements,fits⟩ := value
  obtain ⟨count,items,wrote_count,wrote_items,read⟩ := counted_round_trips all fits (Nat.lt_of_le_of_lt fits N.counted)
  refine ⟨count ++ items,by simp [arrayVecCodec,wrote_count,wrote_items],?_⟩
  intro rest
  have whole : (⟨elements.take N.size,List.length_take_le N.size elements⟩ : ArrayVec α N) = ⟨elements,fits⟩ := by
    simp only [List.take_of_length_le fits]
  refine (Reader.bind_ok (read rest).1).trans ((Reader.bind_ok (read rest).2).trans ?_)
  rw [whole]
  rfl

theorem map_round_trips [DecidableEq K] {KM : FieldCodec K} {VM : FieldCodec V} {value : OrderedMap K V}
    (all : ∀ entry ∈ value.entries, KM.RoundTrips entry.1 ∧ VM.RoundTrips entry.2) (room : value.entries.length ≤ wireVecCap) :
    (mapSequenceCodec KM VM).RoundTrips value := by
  have pairs : ∀ entry ∈ value.entries, (KM.pair VM).RoundTrips entry := fun entry present =>
    WireFormat.pair_roundTrips (all entry present).1 (all entry present).2
  obtain ⟨count,items,wrote_count,wrote_items,read⟩ := counted_round_trips pairs room (Nat.lt_of_le_of_lt room vec_cap_counted)
  refine ⟨count ++ items,by simp [mapSequenceCodec,wrote_count,wrote_items],?_⟩
  intro rest
  have whole : OrderedMap.ofEntries value.entries = value := OrderedMap.ext (OrderedMap.ofEntries_entries value.distinct)
  refine (Reader.bind_ok (read rest).1).trans ((Reader.bind_ok (read rest).2).trans ?_)
  rw [whole]
  rfl

-- No element is read behind a count above the capacity.
theorem sequence_refused (read : unmarshalVlqU32 bytes = .ok (len,rest)) (above : wireVecCap < len.toNat) :
    (sequenceCodec M).read bytes = .error (.containerOverflow len.toNat wireVecCap) :=
  Reader.bind_error (count_refused read above)

theorem array_vec_refused {N : ArrayCapacity} (read : unmarshalVlqU32 bytes = .ok (len,rest)) (above : N.size < len.toNat) :
    (arrayVecCodec M N).read bytes = .error (.containerOverflow len.toNat N.size) :=
  Reader.bind_error (count_refused read above)

theorem map_refused [DecidableEq K] {KM : FieldCodec K} {VM : FieldCodec V} (read : unmarshalVlqU32 bytes = .ok (len,rest))
    (above : wireVecCap < len.toNat) : (mapSequenceCodec KM VM).read bytes = .error (.containerOverflow len.toNat wireVecCap) :=
  Reader.bind_error (count_refused read above)

theorem option_round_trips {value : Option α} (payload : ∀ inner, value = some inner → M.RoundTrips inner) :
    (optionCodec M).RoundTrips value := by
  cases value with
  | none => exact ⟨writeU8 0,rfl,fun rest => rfl⟩
  | some inner =>
    obtain ⟨bytes,wrote,read⟩ := payload inner rfl
    refine ⟨writeU8 1 ++ bytes,by simp [optionCodec,wrote],?_⟩
    intro rest
    have inner_read : (optionCodec M).read (writeU8 1 ++ bytes ++ rest) = (do
        let inner ← M.read
        pure (some inner) : Read (Option α)) (bytes ++ rest) := rfl
    rw [inner_read,Reader.bind_ok (read rest)]
    rfl

end Counted

section Tuples

theorem tuple_round_trips {members : List TupleMember} {values : Tuple TupleMember.Value members}
    (all : values.All fun m value => m.codec.RoundTrips value) : (tupleCodec members).RoundTrips values :=
  WireFormat.sequence_roundTrips all

theorem bool_round_trips (value : Bool) : boolMarshaler.RoundTrips value := by
  apply default_round_trips
  intro rest
  cases value with
  | false => rfl
  | true => rfl

theorem payload_round_trips {m : DefaultMember} {value : m.Value} (back : m.codec.RoundTrips value) :
    (m.payload (m.isPresent value)).RoundTrips value := by
  apply WireFormat.present_roundTrips (fun _ => back)
  intro left_out
  let := m.equal
  exact Decidable.not_not.mp (of_decide_eq_false left_out)

theorem flags_round_trip {members : List DefaultMember} (present : Tuple (fun _ => Bool) members) :
    (WireFormat.sequence (fun _ => boolMarshaler) members).RoundTrips present := by
  apply WireFormat.sequence_roundTrips
  induction members with
  | nil => trivial
  | cons m members ih => exact ⟨bool_round_trips present.1,ih present.2⟩

theorem default_omitted_round_trips {members : List DefaultMember} {values : Tuple (fun m => m.Value) members}
    (all : values.All fun m value => m.codec.RoundTrips value) : (defaultOmittedTupleCodec members).RoundTrips values := by
  have payloads : values.All fun m value => (m.payload (m.isPresent value)).RoundTrips value :=
    all.imp fun _ _ _ back => payload_round_trips back
  obtain ⟨flags,wrote_flags,read_flags⟩ := flags_round_trip (values.map DefaultMember.isPresent)
  obtain ⟨bytes,wrote,read⟩ := WireFormat.sequenceBy_roundTrips payloads
  refine ⟨flags ++ bytes,by simp [defaultOmittedTupleCodec,wrote_flags,wrote],?_⟩
  intro rest
  rw [List.append_assoc]
  exact (Reader.bind_ok (read_flags _)).trans (read rest)

end Tuples

section BitMask
open BitMaskMember
variable {members : List BitMaskMember} {mask : UInt8}

def IsPowerOfTwo (mask : UInt8) : Prop := ∃ bit, bit < 8 ∧ mask = 1 <<< UInt8.ofNat bit

def BitMaskMember.presenceMask : BitMaskMember → Option UInt8
  | required _ _ => none
  | masked _ _ MASK => some MASK

def OneBitMasks (members : List BitMaskMember) : Prop := ∀ MASK ∈ members.filterMap presenceMask, IsPowerOfTwo MASK

def DistinctMasks (members : List BitMaskMember) : Prop := (members.filterMap presenceMask).Nodup

-- A presence bit says whether there is a value.
def BitMaskMember.Agrees (mask : UInt8) : (m : BitMaskMember) → m.Value → Prop
  | required _ _,_ => True
  | masked _ _ MASK,value => (mask &&& MASK != 0) = value.isSome

def Reconciled (mask : UInt8) (values : Tuple Value members) : Prop := values.All (Agrees mask)

def BitMaskMember.ElementRoundTrips : (m : BitMaskMember) → m.Value → Prop
  | required _ M,value => M.RoundTrips value
  | masked _ M _,value => ∀ inner, value = some inner → M.RoundTrips inner

def BitMaskMember.ElementRewrites : BitMaskMember → Prop
  | required _ M => M.Rewrites
  | masked _ M _ => M.Rewrites

theorem reconcile_bit {m : BitMaskMember} (value : m.Value) (small : bit < 8)
    (apart : ∀ MASK ∈ m.presenceMask, IsPowerOfTwo MASK ∧ MASK ≠ 1 <<< UInt8.ofNat bit) :
    hasBit (m.reconcileMask value mask) bit = hasBit mask bit := by
  cases m with
  | required T M => rfl
  | masked T M MASK =>
    obtain ⟨⟨place,inside,rfl⟩,other⟩ := apart MASK rfl
    have places : place ≠ bit := fun same => other (congrArg _ (congrArg _ same))
    cases value with
    | none =>
      refine (hasBit_without mask inside small).trans ?_
      rw [decide_eq_true places,Bool.and_true]
    | some inner =>
      refine (hasBit_or mask _ bit).trans ?_
      rw [hasBit_one inside small,decide_eq_false places,Bool.or_false]

theorem reconcile_own {T : Type} {M : FieldCodec T} (value : Option T) (inside : place < 8) :
    hasBit ((masked T M (1 <<< UInt8.ofNat place)).reconcileMask value mask) place = value.isSome := by
  cases value with
  | none =>
    refine (hasBit_without mask inside inside).trans ?_
    simp
  | some inner =>
    refine (hasBit_or mask _ place).trans ?_
    rw [hasBit_one inside inside]
    simp

theorem reconcileAll_bit {values : Tuple Value members} (small : bit < 8)
    (apart : ∀ MASK ∈ members.filterMap presenceMask, IsPowerOfTwo MASK ∧ MASK ≠ 1 <<< UInt8.ofNat bit) :
    hasBit (reconcileAll members values mask) bit = hasBit mask bit := by
  induction members generalizing mask with
  | nil => rfl
  | cons m members ih =>
    have later : ∀ MASK ∈ members.filterMap presenceMask, IsPowerOfTwo MASK ∧ MASK ≠ 1 <<< UInt8.ofNat bit := by
      intro MASK present
      obtain ⟨n,member,own⟩ := List.mem_filterMap.mp present
      exact apart MASK (List.mem_filterMap.mpr ⟨n,List.mem_cons_of_mem _ member,own⟩)
    refine (ih later).trans (reconcile_bit values.1 small ?_)
    intro MASK own
    exact apart MASK (List.mem_filterMap.mpr ⟨m,List.mem_cons_self,own⟩)

theorem oneBit_tail (oneBit : OneBitMasks (m :: members)) : OneBitMasks members := by
  intro MASK present
  obtain ⟨n,member,own⟩ := List.mem_filterMap.mp present
  exact oneBit MASK (List.mem_filterMap.mpr ⟨n,List.mem_cons_of_mem _ member,own⟩)

-- Members with masks of their own do not undo each other's bits.
theorem reconcileAll_agrees (oneBit : OneBitMasks members) (distinct : DistinctMasks members)
    (values : Tuple Value members) (mask : UInt8) : Reconciled (reconcileAll members values mask) values := by
  induction members generalizing mask with
  | nil => trivial
  | cons m members ih =>
    cases m with
    | required T M => exact ⟨trivial,ih (oneBit_tail oneBit) distinct values.2 _⟩
    | masked T M MASK =>
      obtain ⟨first,others⟩ := List.nodup_cons.mp distinct
      obtain ⟨place,inside,rfl⟩ := oneBit MASK List.mem_cons_self
      refine ⟨?_,ih (oneBit_tail oneBit) others values.2 _⟩
      have kept : hasBit (reconcileAll members values.2 ((masked T M (1 <<< UInt8.ofNat place)).reconcileMask values.1 mask)) place =
          hasBit ((masked T M (1 <<< UInt8.ofNat place)).reconcileMask values.1 mask) place := by
        apply reconcileAll_bit inside
        intro other present
        exact ⟨oneBit_tail oneBit other present,fun same => first (same ▸ present)⟩
      exact kept.trans (reconcile_own values.1 inside)

theorem reconcile_agreeing {m : BitMaskMember} {value : m.Value} (oneBit : ∀ MASK ∈ m.presenceMask, IsPowerOfTwo MASK)
    (agrees : m.Agrees mask value) : m.reconcileMask value mask = mask := by
  cases m with
  | required T M => rfl
  | masked T M MASK =>
    obtain ⟨place,inside,rfl⟩ := oneBit MASK rfl
    have own : hasBit mask place = Option.isSome value := agrees
    apply eq_of_bits
    intro bit small
    by_cases same : place = bit
    · subst same
      exact (reconcile_own value inside).trans own.symm
    · apply reconcile_bit value small
      intro MASK here
      cases here
      refine ⟨⟨place,inside,rfl⟩,?_⟩
      intro equal
      have bits := hasBit_one inside small
      rw [equal,hasBit_one small small,decide_eq_true rfl,decide_eq_false same] at bits
      cases bits

-- A mask that agrees with the values stays as it is, with the bits of no member.
theorem reconcileAll_agreeing {values : Tuple Value members} (oneBit : OneBitMasks members)
    (agrees : Reconciled mask values) : reconcileAll members values mask = mask := by
  induction members with
  | nil => rfl
  | cons m members ih =>
    have first : m.reconcileMask values.1 mask = mask := by
      refine reconcile_agreeing ?_ agrees.1
      intro MASK own
      exact oneBit MASK (List.mem_filterMap.mpr ⟨m,List.mem_cons_self,own⟩)
    unfold reconcileAll
    rw [first]
    exact ih (oneBit_tail oneBit) agrees.2

theorem behind_round_trips {m : BitMaskMember} {value : m.Value} (agrees : m.Agrees mask value)
    (element : m.ElementRoundTrips value) : (behindMask mask m).RoundTrips value := by
  cases m with
  | required T M => exact element
  | masked T M MASK =>
    have here : (mask &&& MASK != 0) = Option.isSome value := agrees
    cases value with
    | none =>
      refine ⟨[],?_,?_⟩
      · exact if_neg (by rw [here]; exact Bool.false_ne_true)
      · intro rest
        have read : (behindMask mask (masked T M MASK)).read = pure none :=
          if_neg (by rw [here]; exact Bool.false_ne_true)
        rw [read]
        rfl
    | some inner =>
      obtain ⟨bytes,wrote,read_inner⟩ := element inner rfl
      refine ⟨bytes,?_,?_⟩
      · exact (if_pos here).trans wrote
      · intro rest
        have read : (behindMask mask (masked T M MASK)).read = (do
            let inner ← M.read
            pure (some inner)) := if_pos here
        rw [read]
        exact Reader.bind_ok (read_inner rest)

-- What is read behind a mask agrees with it.
theorem behind_reads {m : BitMaskMember} {value : m.Value} (ran : (behindMask mask m).read bytes = .ok (value,rest)) :
    m.Agrees mask value := by
  cases m with
  | required T M => trivial
  | masked T M MASK =>
    unfold behindMask unmarshalMasked at ran
    dsimp only at ran
    cases here : mask &&& MASK != 0 with
    | false =>
      rw [here] at ran
      cases ran
      exact here
    | true =>
      rw [here] at ran
      obtain ⟨inner,middle,_,done⟩ := Reader.bind_eq_ok.mp ran
      cases done
      exact here

theorem behind_rewrites {m : BitMaskMember} (element : m.ElementRewrites) : (behindMask mask m).Rewrites := by
  cases m with
  | required T M => exact element
  | masked T M MASK =>
    intro bytes value rest ran
    unfold behindMask unmarshalMasked at ran
    dsimp only at ran
    unfold behindMask marshalMasked
    dsimp only
    cases here : mask &&& MASK != 0 with
    | false =>
      rw [here] at ran
      cases ran
      exact ⟨[],rfl,rfl⟩
    | true =>
      rw [here] at ran
      obtain ⟨inner,middle,read,done⟩ := Reader.bind_eq_ok.mp ran
      cases done
      exact element read

-- Any mask is written reconciled, and read back so.
theorem bit_mask_tuple_back (oneBit : OneBitMasks members) (distinct : DistinctMasks members)
    {values : Tuple Value members} (all : values.All ElementRoundTrips) (mask : UInt8) :
    ∃ bytes, (bitMaskTupleCodec members).write (mask,values) = some bytes ∧ ∀ rest,
      (bitMaskTupleCodec members).read (bytes ++ rest) = .ok ((reconcileAll members values mask,values),rest) := by
  have agrees := reconcileAll_agrees oneBit distinct values mask
  have members_back : values.All fun m value => (behindMask (reconcileAll members values mask) m).RoundTrips value :=
    (Tuple.all_and.mpr ⟨agrees,all⟩).imp fun _ _ _ both => behind_round_trips both.1 both.2
  obtain ⟨bytes,wrote,read⟩ := WireFormat.sequence_roundTrips members_back
  refine ⟨writeU8 (reconcileAll members values mask) ++ bytes,by simp [bitMaskTupleCodec,wrote],?_⟩
  intro rest
  rw [List.append_assoc]
  exact (Reader.bind_ok (u8_back _ _)).trans (Reader.bind_ok (read rest))

theorem bit_mask_tuple_round_trips (oneBit : OneBitMasks members) (distinct : DistinctMasks members)
    {values : Tuple Value members} (all : values.All ElementRoundTrips) (agrees : Reconciled mask values) :
    (bitMaskTupleCodec members).RoundTrips (mask,values) := by
  obtain ⟨bytes,wrote,read⟩ := bit_mask_tuple_back oneBit distinct all mask
  rw [reconcileAll_agreeing oneBit agrees] at read
  exact ⟨bytes,wrote,read⟩

theorem bit_mask_tuple_rewrites (oneBit : OneBitMasks members) (elements : ∀ m ∈ members, m.ElementRewrites) :
    (bitMaskTupleCodec members).Rewrites := by
  intro bytes value rest ran
  obtain ⟨mask,middle,read_mask,ran⟩ := Reader.bind_eq_ok.mp ran
  obtain ⟨values,last,read_values,done⟩ := Reader.bind_eq_ok.mp ran
  cases done
  have agrees : Reconciled mask values := WireFormat.sequence_reads (fun _ _ => behind_reads) read_values
  obtain ⟨taken,wrote,rfl⟩ := WireFormat.sequence_rewrites (fun m member => behind_rewrites (elements m member)) read_values
  refine ⟨writeU8 mask ++ taken,?_,?_⟩
  · simp [bitMaskTupleCodec,reconcileAll_agreeing oneBit agrees,wrote]
  · rw [u8_only read_mask,List.append_assoc]

end BitMask

theorem codec_combinators :
    (∀ {α : Type} (M : FieldCodec α) (value : List α), (∀ item ∈ value, M.RoundTrips item) → value.length ≤ wireVecCap →
      (sequenceCodec M).RoundTrips value) ∧
    (∀ {α : Type} (M : FieldCodec α) (N : ArrayCapacity) (value : ArrayVec α N), (∀ item ∈ value.items, M.RoundTrips item) →
      (arrayVecCodec M N).RoundTrips value) ∧
    (∀ {K V : Type} [DecidableEq K] (KM : FieldCodec K) (VM : FieldCodec V) (value : OrderedMap K V),
      (∀ entry ∈ value.entries, KM.RoundTrips entry.1 ∧ VM.RoundTrips entry.2) → value.entries.length ≤ wireVecCap →
      (mapSequenceCodec KM VM).RoundTrips value) ∧
    (∀ {α : Type} (M : FieldCodec α) (value : Option α), (∀ inner, value = some inner → M.RoundTrips inner) →
      (optionCodec M).RoundTrips value) ∧
    (∀ (members : List TupleMember) (values : Tuple TupleMember.Value members),
      (values.All fun m value => m.codec.RoundTrips value) → (tupleCodec members).RoundTrips values) ∧
    (∀ (members : List DefaultMember) (values : Tuple (fun m => m.Value) members),
      (values.All fun m value => m.codec.RoundTrips value) → (defaultOmittedTupleCodec members).RoundTrips values) ∧
    (∀ (members : List BitMaskMember) (mask : UInt8) (values : Tuple BitMaskMember.Value members),
      OneBitMasks members → DistinctMasks members → values.All BitMaskMember.ElementRoundTrips →
      (∃ bytes, (bitMaskTupleCodec members).write (mask,values) = some bytes ∧ ∀ rest,
        (bitMaskTupleCodec members).read (bytes ++ rest) =
          .ok ((BitMaskMember.reconcileAll members values mask,values),rest)) ∧
      (Reconciled mask values → (bitMaskTupleCodec members).RoundTrips (mask,values))) ∧
    (∀ (bytes rest : Bytes) (len : BitVec 32), unmarshalVlqU32 bytes = .ok (len,rest) →
      (∀ {α : Type} (M : FieldCodec α), wireVecCap < len.toNat →
        (sequenceCodec M).read bytes = .error (.containerOverflow len.toNat wireVecCap)) ∧
      (∀ {α : Type} (M : FieldCodec α) (N : ArrayCapacity), N.size < len.toNat →
        (arrayVecCodec M N).read bytes = .error (.containerOverflow len.toNat N.size)) ∧
      ∀ {K V : Type} [DecidableEq K] (KM : FieldCodec K) (VM : FieldCodec V), wireVecCap < len.toNat →
        (mapSequenceCodec KM VM).read bytes = .error (.containerOverflow len.toNat wireVecCap)) ∧
    ∀ members : List BitMaskMember, OneBitMasks members → (∀ m ∈ members, m.ElementRewrites) →
      (bitMaskTupleCodec members).Rewrites := by
  refine ⟨?vec,?array_vec,?map,?option,?tuple,?default_omitted,?bit_mask,?refused,?rewrites⟩
  case vec => exact fun _ _ all room => sequence_round_trips all room
  case array_vec => exact fun _ _ _ all => array_vec_round_trips all
  case map => exact fun _ _ _ all room => map_round_trips all room
  case option => exact fun _ _ payload => option_round_trips payload
  case tuple => exact fun _ _ all => tuple_round_trips all
  case default_omitted => exact fun _ _ all => default_omitted_round_trips all
  case bit_mask =>
    intro members mask values oneBit distinct all
    exact ⟨bit_mask_tuple_back oneBit distinct all mask,bit_mask_tuple_round_trips oneBit distinct all⟩
  case refused =>
    intro bytes rest len read
    exact ⟨fun _ above => sequence_refused read above,fun _ _ above => array_vec_refused read above,
      fun _ _ above => map_refused read above⟩
  case rewrites => exact fun _ oneBit elements => bit_mask_tuple_rewrites oneBit elements

def maskedMembers : List BitMaskMember :=
  [.required (BitVec 16) (defaultMarshaler writeU16 readU16),.masked UInt8 (defaultMarshaler writeU8 readU8) 0x01,
    .masked (BitVec 16) (defaultMarshaler writeU16 readU16) 0x04]

def maskedValues : Tuple BitMaskMember.Value maskedMembers :=
  ((7 : BitVec 16),some (9 : UInt8),(none : Option (BitVec 16)),())

theorem masked_one_bit : OneBitMasks maskedMembers := by
  intro MASK present
  have listed : MASK ∈ [(0x01 : UInt8),0x04] := present
  rcases List.mem_cons.mp listed with rfl | later
  · exact ⟨0,by decide,rfl⟩
  · cases List.mem_singleton.mp later
    exact ⟨2,by decide,rfl⟩

theorem masked_distinct : DistinctMasks maskedMembers := by
  unfold DistinctMasks
  decide

-- The highest bit of the mask is no member's.
theorem codec_combinators_masked : (bitMaskTupleCodec maskedMembers).RoundTrips (0x81,maskedValues) ∧
    (bitMaskTupleCodec maskedMembers).Rewrites := by
  obtain ⟨_,_,_,_,_,_,bit_mask,_,rewrites⟩ := codec_combinators
  constructor
  · refine (bit_mask maskedMembers 0x81 maskedValues masked_one_bit masked_distinct ?_).2 ⟨trivial,rfl,rfl,trivial⟩
    refine ⟨default_round_trips (u16_back 7),?_,?_,trivial⟩
    · exact fun inner _ => default_round_trips (u8_back inner)
    · exact fun inner _ => default_round_trips (u16_back inner)
  · apply rewrites maskedMembers masked_one_bit
    intro m member
    rcases List.mem_cons.mp member with rfl | later
    · exact default_rewrites u16_only
    · rcases List.mem_cons.mp later with rfl | last
      · exact default_rewrites u8_only
      · cases List.mem_singleton.mp last
        exact default_rewrites u16_only

end NwNetwork.Serialize
