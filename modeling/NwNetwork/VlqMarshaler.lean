import NwNetwork.SerializeVlq

namespace NwNetwork.Serialize
open WireReader

-- The three codecs branch by branch, with the masks, shifts and tag bits of the
-- source. The array it fills is written up to the length of the branch.
def byte (value : BitVec 64) : UInt8 := UInt8.ofBitVec ((value &&& 0xff).setWidth 8)

def VlqU16Marshaler.marshal (v : BitVec 16) : Bytes :=
  let v32 : BitVec 32 := v.setWidth 32
  if v < 0x80 then [byte (v.setWidth 64)]
  else if v < 0x4000 then
    [0x80 ||| byte ((v32 &&& 0x3f).setWidth 64),
     byte (((v32 &&& 0x3fc0) >>> 6).setWidth 64)]
  else
    [0xc0 ||| byte ((v32 &&& 0x1f).setWidth 64),
     byte (((v32 &&& 0x1fe0) >>> 5).setWidth 64),
     byte (((v32 &&& 0x1fe000) >>> 13).setWidth 64)]

def VlqU32Marshaler.marshal (v : BitVec 32) : Bytes :=
  if v < 0x80 then [byte (v.setWidth 64)]
  else if v < 0x4000 then
    [0x80 ||| byte ((v &&& 0x3f).setWidth 64),
     byte (((v &&& 0x3fc0) >>> 6).setWidth 64)]
  else if v < 0x200000 then
    [0xc0 ||| byte ((v &&& 0x1f).setWidth 64),
     byte (((v &&& 0x1fe0) >>> 5).setWidth 64),
     byte (((v &&& 0x1fe000) >>> 13).setWidth 64)]
  else if v < 0x10000000 then
    [0xe0 ||| byte ((v &&& 0x0f).setWidth 64),
     byte (((v &&& 0x00000ff0) >>> 4).setWidth 64),
     byte (((v &&& 0x000ff000) >>> 12).setWidth 64),
     byte (((v &&& 0x0ff00000) >>> 20).setWidth 64)]
  else
    [0xf0 ||| byte ((v &&& 0x07).setWidth 64),
     byte (((v &&& 0x000007f8) >>> 3).setWidth 64),
     byte (((v &&& 0x0007f800) >>> 11).setWidth 64),
     byte (((v &&& 0x07f80000) >>> 19).setWidth 64),
     byte (((v &&& 0xf8000000) >>> 27).setWidth 64)]

def VlqU32Marshaler.unmarshal : Read (BitVec 32) := do
  let first ← readU8
  if first < 0x80 then
    pure (first.toBitVec.setWidth 32)
  else if first < 0xc0 then
    let b1 ← readU8
    pure ((first &&& ~~~0xc0).toBitVec.setWidth 32 ||| b1.toBitVec.setWidth 32 <<< 6)
  else if first < 0xe0 then
    let b1 ← readU8
    let b2 ← readU8
    pure ((first &&& ~~~0xe0).toBitVec.setWidth 32 ||| b1.toBitVec.setWidth 32 <<< 5 |||
      b2.toBitVec.setWidth 32 <<< 13)
  else if first < 0xf0 then
    let b1 ← readU8
    let b2 ← readU8
    let b3 ← readU8
    pure ((first &&& ~~~0xf0).toBitVec.setWidth 32 ||| b1.toBitVec.setWidth 32 <<< 4 |||
      b2.toBitVec.setWidth 32 <<< 12 ||| b3.toBitVec.setWidth 32 <<< 20)
  else
    let b1 ← readU8
    let b2 ← readU8
    let b3 ← readU8
    let b4 ← readU8
    pure ((first &&& ~~~0xf8).toBitVec.setWidth 32 ||| b1.toBitVec.setWidth 32 <<< 3 |||
      b2.toBitVec.setWidth 32 <<< 11 ||| b3.toBitVec.setWidth 32 <<< 19 |||
      b4.toBitVec.setWidth 32 <<< 27)

def VlqU16Marshaler.unmarshal : Read (BitVec 16) := do
  let value ← VlqU32Marshaler.unmarshal
  if value > 0xffff then Reader.fail (.containerOverflow value.toNat 0xffff)
  else pure (value.setWidth 16)

def byteAfterBits (v : BitVec 64) (bits : Nat) : UInt8 := byte (v >>> bits)

def VlqU64Marshaler.marshal (v : BitVec 64) : Bytes :=
  if v < 0x80 then [byte v]
  else if v < 0x4000 then
    [0x80 ||| byte (v &&& 0x3f),byteAfterBits v 6]
  else if v < 0x200000 then
    [0xc0 ||| byte (v &&& 0x1f),byteAfterBits v 5,byteAfterBits v 13]
  else if v < 0x10000000 then
    [0xe0 ||| byte (v &&& 0x0f),byteAfterBits v 4,byteAfterBits v 12,byteAfterBits v 20]
  else if v < 0x0000000008000000 then
    [0xf0 ||| byte (v &&& 0x07),byteAfterBits v 3,byteAfterBits v 11,byteAfterBits v 19,byteAfterBits v 27]
  else if v < 0x0000040000000000 then
    [0xf8 ||| byte (v &&& 0x03),byteAfterBits v 2,byteAfterBits v 10,byteAfterBits v 18,byteAfterBits v 26,
     byteAfterBits v 34]
  else if v < 0x0002000000000000 then
    [0xfc ||| byte (v &&& 0x01),byteAfterBits v 1,byteAfterBits v 9,byteAfterBits v 17,byteAfterBits v 25,
     byteAfterBits v 33,byteAfterBits v 41]
  else if v < 0x0100000000000000 then
    [0xfe,byteAfterBits v 0,byteAfterBits v 8,byteAfterBits v 16,byteAfterBits v 24,byteAfterBits v 32,
     byteAfterBits v 40,byteAfterBits v 48]
  else
    [0xff,byteAfterBits v 0,byteAfterBits v 8,byteAfterBits v 16,byteAfterBits v 24,byteAfterBits v 32,
     byteAfterBits v 40,byteAfterBits v 48,byteAfterBits v 56]

def VlqU64Marshaler.unmarshal : Read (BitVec 64) := do
  let first ← readU8
  if first < 0x80 then
    pure (first.toBitVec.setWidth 64)
  else if first < 0xc0 then
    let b1 ← readU8
    pure ((first &&& ~~~0xc0).toBitVec.setWidth 64 ||| b1.toBitVec.setWidth 64 <<< 6)
  else if first < 0xe0 then
    let b1 ← readU8
    let b2 ← readU8
    pure ((first &&& ~~~0xe0).toBitVec.setWidth 64 ||| b1.toBitVec.setWidth 64 <<< 5 |||
      b2.toBitVec.setWidth 64 <<< 13)
  else if first < 0xf0 then
    let b1 ← readU8
    let b2 ← readU8
    let b3 ← readU8
    pure ((first &&& ~~~0xf0).toBitVec.setWidth 64 ||| b1.toBitVec.setWidth 64 <<< 4 |||
      b2.toBitVec.setWidth 64 <<< 12 ||| b3.toBitVec.setWidth 64 <<< 20)
  else if first < 0xf8 then
    let b1 ← readU8
    let b2 ← readU8
    let b3 ← readU8
    let b4 ← readU8
    pure ((first &&& ~~~0xf8).toBitVec.setWidth 64 ||| b1.toBitVec.setWidth 64 <<< 3 |||
      b2.toBitVec.setWidth 64 <<< 11 ||| b3.toBitVec.setWidth 64 <<< 19 |||
      b4.toBitVec.setWidth 64 <<< 27)
  else if first < 0xfc then
    let b1 ← readU8
    let b2 ← readU8
    let b3 ← readU8
    let b4 ← readU8
    let b5 ← readU8
    pure ((first &&& ~~~0xfc).toBitVec.setWidth 64 ||| b1.toBitVec.setWidth 64 <<< 2 |||
      b2.toBitVec.setWidth 64 <<< 10 ||| b3.toBitVec.setWidth 64 <<< 18 |||
      b4.toBitVec.setWidth 64 <<< 26 ||| b5.toBitVec.setWidth 64 <<< 34)
  else if first < 0xfe then
    let b1 ← readU8
    let b2 ← readU8
    let b3 ← readU8
    let b4 ← readU8
    let b5 ← readU8
    let b6 ← readU8
    pure ((first &&& ~~~0xfe).toBitVec.setWidth 64 ||| b1.toBitVec.setWidth 64 <<< 1 |||
      b2.toBitVec.setWidth 64 <<< 9 ||| b3.toBitVec.setWidth 64 <<< 17 |||
      b4.toBitVec.setWidth 64 <<< 25 ||| b5.toBitVec.setWidth 64 <<< 33 |||
      b6.toBitVec.setWidth 64 <<< 41)
  else if first < 0xff then
    let b1 ← readU8
    let b2 ← readU8
    let b3 ← readU8
    let b4 ← readU8
    let b5 ← readU8
    let b6 ← readU8
    let b7 ← readU8
    pure (b1.toBitVec.setWidth 64 ||| b2.toBitVec.setWidth 64 <<< 8 |||
      b3.toBitVec.setWidth 64 <<< 16 ||| b4.toBitVec.setWidth 64 <<< 24 |||
      b5.toBitVec.setWidth 64 <<< 32 ||| b6.toBitVec.setWidth 64 <<< 40 |||
      b7.toBitVec.setWidth 64 <<< 48)
  else
    let b1 ← readU8
    let b2 ← readU8
    let b3 ← readU8
    let b4 ← readU8
    let b5 ← readU8
    let b6 ← readU8
    let b7 ← readU8
    let b8 ← readU8
    pure (b1.toBitVec.setWidth 64 ||| b2.toBitVec.setWidth 64 <<< 8 |||
      b3.toBitVec.setWidth 64 <<< 16 ||| b4.toBitVec.setWidth 64 <<< 24 |||
      b5.toBitVec.setWidth 64 <<< 32 ||| b6.toBitVec.setWidth 64 <<< 40 |||
      b7.toBitVec.setWidth 64 <<< 48 ||| b8.toBitVec.setWidth 64 <<< 56)

-- A mask of low bits is a remainder.
theorem low_toNat {width : Nat} (v mask : BitVec width) (bits : Nat) (low : mask.toNat = 2^bits - 1) :
    (v &&& mask).toNat = v.toNat % 2^bits := by
  rw [BitVec.toNat_and,low,Nat.and_two_pow_sub_one_eq_mod]

theorem byte_toNat (value : BitVec 64) : byte value = UInt8.ofNat value.toNat := by
  have low : (value &&& 0xff).toNat = value.toNat % 2^8 := low_toNat _ _ 8 (by rfl)
  unfold byte
  apply UInt8.toNat.inj
  rw [UInt8.toNat_ofBitVec,BitVec.toNat_setWidth,low,UInt8.toNat_ofNat']
  exact Nat.mod_mod _ _

theorem byteAfterBits_toNat (v : BitVec 64) (bits : Nat) : byteAfterBits v bits = UInt8.ofNat (v.toNat / 2^bits) := by
  rw [byteAfterBits,byte_toNat,BitVec.toNat_ushiftRight,Nat.shiftRight_eq_div_pow]

-- A byte masked where it stands and shifted down is the byte shifted down.
theorem masked_byte (v mask : BitVec 32) (shift : Nat) (whole : mask >>> shift = 0xff) :
    byte (((v &&& mask) >>> shift).setWidth 64) = UInt8.ofNat (v.toNat / 2^shift) := by
  rw [BitVec.ushiftRight_and_distrib,whole,byte_toNat]
  apply UInt8.toNat.inj
  have bound : ((v >>> shift) &&& 0xff).toNat = v.toNat / 2^shift % 2^8 := by
    rw [low_toNat _ _ 8 (by rfl),BitVec.toNat_ushiftRight,Nat.shiftRight_eq_div_pow]
  rw [BitVec.toNat_setWidth,bound]
  simp

theorem tag_or : ∀ extra < 9, ∀ low < 2^(7 - extra),
    UInt8.ofNat (vlqMark extra) ||| UInt8.ofNat low = UInt8.ofNat (vlqMark extra + low) := by decide +kernel

theorem tagged_u64 (v mask : BitVec 64) (small : extra < 9) (low : mask.toNat = 2^(7 - extra) - 1) :
    UInt8.ofNat (vlqMark extra) ||| byte (v &&& mask) =
      UInt8.ofNat (vlqMark extra + v.toNat % 2^(7 - extra)) := by
  rw [byte_toNat,low_toNat _ _ _ low]
  exact tag_or extra small _ (Nat.mod_lt _ (Nat.two_pow_pos _))

theorem tagged_u32 (v mask : BitVec 32) (small : extra < 9) (low : mask.toNat = 2^(7 - extra) - 1) :
    UInt8.ofNat (vlqMark extra) ||| byte ((v &&& mask).setWidth 64) =
      UInt8.ofNat (vlqMark extra + v.toNat % 2^(7 - extra)) := by
  have wide : ((v &&& mask).setWidth 64).toNat = v.toNat % 2^(7 - extra) := by
    rw [BitVec.toNat_setWidth_of_le (by decide),low_toNat _ _ _ low]
  rw [byte_toNat,wide]
  exact tag_or extra small _ (Nat.mod_lt _ (Nat.two_pow_pos _))

theorem leBytes_map (count value bits : Nat) : leBytes count (value / 2^bits) =
    (List.range count).map fun place => UInt8.ofNat (value / 2^(bits + 8*place)) := by
  induction count generalizing bits with
  | zero => rfl
  | succ count ih =>
    have byte : UInt8.ofNat (value / 2^bits % 256) = UInt8.ofNat (value / 2^bits) := by
      apply UInt8.toNat.inj
      simp
    have next : value / 2^bits / 256 = value / 2^(bits + 8) := by
      rw [Nat.div_div_eq_div_mul,Nat.pow_add]
    rw [leBytes,byte,next,ih,List.range_succ_eq_map,List.map_cons,List.map_map]
    simp [Function.comp_def,Nat.mul_add,Nat.add_assoc,Nat.add_comm 8]

theorem vlqForm_map (extra value : Nat) : vlqForm extra value =
    UInt8.ofNat (vlqMark extra + value % 2^(7 - extra)) ::
      (List.range extra).map fun place => UInt8.ofNat (value / 2^(7 - extra + 8*place)) := by
  rw [vlqForm,leBytes_map]

theorem single_byte (small : value < 0x80) :
    UInt8.ofNat value = UInt8.ofNat (vlqMark 0 + value % 2^(7 - 0)) := by
  rw [show value % 2^(7 - 0) = value from Nat.mod_eq_of_lt small]
  simp [vlqMark]

theorem bare_mark (extra value : Nat) (none : 7 - extra = 0) :
    UInt8.ofNat (vlqMark extra) = UInt8.ofNat (vlqMark extra + value % 2^(7 - extra)) := by
  rw [none,Nat.pow_zero,Nat.mod_one,Nat.add_zero]

theorem marshal_u64 (v : BitVec 64) : VlqU64Marshaler.marshal v = marshalVlqU64 v := by
  unfold VlqU64Marshaler.marshal marshalVlqU64 vlqU64Extra
  simp only [BitVec.lt_def,byteAfterBits_toNat,BitVec.reduceToNat,vlqForm_map]
  split
  · rename_i small
    rw [byte_toNat,single_byte small]
    rfl
  split
  · exact congrArg₂ List.cons (tagged_u64 v 0x3f (by decide : 1 < 9) rfl) rfl
  split
  · exact congrArg₂ List.cons (tagged_u64 v 0x1f (by decide : 2 < 9) rfl) rfl
  split
  · exact congrArg₂ List.cons (tagged_u64 v 0x0f (by decide : 3 < 9) rfl) rfl
  split
  · exact congrArg₂ List.cons (tagged_u64 v 0x07 (by decide : 4 < 9) rfl) rfl
  split
  · exact congrArg₂ List.cons (tagged_u64 v 0x03 (by decide : 5 < 9) rfl) rfl
  split
  · exact congrArg₂ List.cons (tagged_u64 v 0x01 (by decide : 6 < 9) rfl) rfl
  split
  · exact congrArg₂ List.cons (bare_mark 7 v.toNat rfl) rfl
  · exact congrArg₂ List.cons (bare_mark 8 v.toNat rfl) rfl

-- The fifth byte of the 32-bit form has only five bits of the value.
theorem top_byte (v : BitVec 32) :
    byte (((v &&& 0xf8000000) >>> 27).setWidth 64) = UInt8.ofNat (v.toNat / 2^27) := by
  have whole : (0xf8000000 : BitVec 32) >>> 27 = 0x1f := by decide
  have small : v.toNat / 2^27 < 2^5 := by have bound := v.isLt; omega
  have five : (v >>> 27 &&& 0x1f).toNat = v.toNat / 2^27 := by
    rw [low_toNat _ _ 5 (by rfl),BitVec.toNat_ushiftRight,Nat.shiftRight_eq_div_pow,Nat.mod_eq_of_lt small]
  rw [BitVec.ushiftRight_and_distrib,whole,byte_toNat,BitVec.toNat_setWidth_of_le (by decide),five]

theorem marshal_u32 (v : BitVec 32) : VlqU32Marshaler.marshal v = marshalVlqU32 v := by
  unfold VlqU32Marshaler.marshal marshalVlqU32 vlqU32Extra
  simp only [BitVec.lt_def,BitVec.reduceToNat,vlqForm_map]
  split
  · rename_i small
    rw [byte_toNat,BitVec.toNat_setWidth_of_le (by decide),single_byte small]
    rfl
  split
  · rw [masked_byte v 0x3fc0 6 (by decide)]
    exact congrArg₂ List.cons (tagged_u32 v 0x3f (by decide : 1 < 9) rfl) rfl
  split
  · rw [masked_byte v 0x1fe0 5 (by decide),masked_byte v 0x1fe000 13 (by decide)]
    exact congrArg₂ List.cons (tagged_u32 v 0x1f (by decide : 2 < 9) rfl) rfl
  split
  · rw [masked_byte v 0x0ff0 4 (by decide),masked_byte v 0x0ff000 12 (by decide),masked_byte v 0x0ff00000 20 (by decide)]
    exact congrArg₂ List.cons (tagged_u32 v 0x0f (by decide : 3 < 9) rfl) rfl
  · rw [masked_byte v 0x07f8 3 (by decide),masked_byte v 0x07f800 11 (by decide),masked_byte v 0x07f80000 19 (by decide),
      top_byte]
    exact congrArg₂ List.cons (tagged_u32 v 0x07 (by decide : 4 < 9) rfl) rfl

theorem marshal_u16 (v : BitVec 16) : VlqU16Marshaler.marshal v = VlqU32Marshaler.marshal (v.setWidth 32) := by
  have bound := v.isLt
  have same : (v.setWidth 32).toNat = v.toNat := BitVec.toNat_setWidth_of_le (by decide)
  have wide : (v.setWidth 32).setWidth 64 = v.setWidth 64 := BitVec.setWidth_setWidth (by decide)
  have below : v.toNat < 2097152 := by omega
  unfold VlqU16Marshaler.marshal VlqU32Marshaler.marshal
  simp only [BitVec.lt_def,BitVec.reduceToNat,same,wide,if_pos below]

-- The branches of the decoders as one loop over the bytes after the first.
def orBytes {width : Nat} (value : BitVec width) : Nat → Bytes → BitVec width
  | _,[] => value
  | shift,byte :: bytes => orBytes (value ||| byte.toBitVec.setWidth width <<< shift) (shift + 8) bytes

def leValue : Bytes → Nat
  | [] => 0
  | byte :: bytes => byte.toNat + 256*leValue bytes

theorem or_shifted {width : Nat} (byte : UInt8) (small : low < 2^shift) :
    BitVec.ofNat width low ||| byte.toBitVec.setWidth width <<< shift =
      BitVec.ofNat width (low + 2^shift*byte.toNat) := by
  have shifted : byte.toBitVec.setWidth width <<< shift = BitVec.ofNat width (2^shift*byte.toNat) := by
    apply BitVec.eq_of_toNat_eq
    simp [Nat.shiftLeft_eq,Nat.mul_comm]
  rw [shifted,Nat.add_comm,Nat.two_pow_add_eq_or_of_lt small,BitVec.ofNat_or,BitVec.or_comm]

theorem orBytes_value {width : Nat} (bytes : Bytes) (small : low < 2^shift) :
    orBytes (BitVec.ofNat width low) shift bytes = BitVec.ofNat width (low + 2^shift*leValue bytes) := by
  induction bytes generalizing low shift with
  | nil => rfl
  | cons byte bytes ih =>
    have bound := byte.toNat_lt
    have next : low + 2^shift*byte.toNat < 2^(shift + 8) := by
      rw [Nat.pow_add]
      calc low + 2^shift*byte.toNat < 2^shift + 2^shift*byte.toNat := Nat.add_lt_add_right small _
        _ = 2^shift*(byte.toNat + 1) := by rw [Nat.mul_add,Nat.mul_one,Nat.add_comm]
        _ ≤ 2^shift*2^8 := Nat.mul_le_mul_left _ bound
    have value : low + 2^shift*byte.toNat + 2^(shift + 8)*leValue bytes =
        low + 2^shift*leValue (byte :: bytes) := by
      rw [leValue,Nat.pow_add,Nat.mul_assoc,Nat.mul_add,Nat.add_assoc]
    rw [orBytes,or_shifted byte small,ih next,value]

theorem readLeBytes_times (count : Nat) :
    readLeBytes count = Reader.times readU8 count >>= fun bytes => pure (leValue bytes) := by
  induction count with
  | zero => rfl
  | succ count ih => simp [readLeBytes,Reader.times,ih,leValue]

theorem form_value (width extra : Nat) (first : UInt8) :
    (readVlqForm extra first >>= fun value => pure (BitVec.ofNat width value)) =
      Reader.times readU8 extra >>= fun bytes =>
        pure (orBytes (BitVec.ofNat width (first.toNat % 2^(7 - extra))) (7 - extra) bytes) := by
  have value := fun bytes => @orBytes_value _ _ width bytes (Nat.mod_lt first.toNat (Nat.two_pow_pos (7 - extra)))
  simp [readVlqForm,readLeBytes_times,value]

theorem first_masked {width : Nat} (first mask : UInt8) (bits : Nat) (low : mask.toNat = 2^bits - 1) :
    (first &&& mask).toBitVec.setWidth width = BitVec.ofNat width (first.toNat % 2^bits) := by
  apply BitVec.eq_of_toNat_eq
  rw [BitVec.toNat_setWidth,UInt8.toNat_toBitVec,UInt8.toNat_and,low,Nat.and_two_pow_sub_one_eq_mod,BitVec.toNat_ofNat]

theorem first_whole {width : Nat} {first : UInt8} (small : first < 0x80) :
    first.toBitVec.setWidth width = BitVec.ofNat width (first.toNat % 2^7) := by
  have low : first.toNat < 2^7 := small
  apply BitVec.eq_of_toNat_eq
  rw [Nat.mod_eq_of_lt low]
  simp

theorem unmarshal_u32 : VlqU32Marshaler.unmarshal = unmarshalVlqU32 := by
  unfold VlqU32Marshaler.unmarshal unmarshalVlqU32
  refine congrArg (readU8 >>= ·) (funext fun first => ?_)
  rw [form_value]
  unfold firstU32Extra
  split
  · rename_i small
    rw [first_whole small]
    rfl
  split
  · rw [first_masked first (~~~0xc0) 6 (by decide)]
    simp only [Reader.times_next,Reader.times_none]
    rfl
  split
  · rw [first_masked first (~~~0xe0) 5 (by decide)]
    simp only [Reader.times_next,Reader.times_none]
    rfl
  split
  · rw [first_masked first (~~~0xf0) 4 (by decide)]
    simp only [Reader.times_next,Reader.times_none]
    rfl
  · rw [first_masked first (~~~0xf8) 3 (by decide)]
    simp only [Reader.times_next,Reader.times_none]
    rfl

theorem unmarshal_u64 : VlqU64Marshaler.unmarshal = unmarshalVlqU64 := by
  unfold VlqU64Marshaler.unmarshal unmarshalVlqU64
  refine congrArg (readU8 >>= ·) (funext fun first => ?_)
  rw [form_value]
  unfold firstU64Extra
  split
  · rename_i small
    rw [first_whole small]
    rfl
  split
  · rw [first_masked first (~~~0xc0) 6 (by decide)]
    simp only [Reader.times_next,Reader.times_none]
    rfl
  split
  · rw [first_masked first (~~~0xe0) 5 (by decide)]
    simp only [Reader.times_next,Reader.times_none]
    rfl
  split
  · rw [first_masked first (~~~0xf0) 4 (by decide)]
    simp only [Reader.times_next,Reader.times_none]
    rfl
  split
  · rw [first_masked first (~~~0xf8) 3 (by decide)]
    simp only [Reader.times_next,Reader.times_none]
    rfl
  split
  · rw [first_masked first (~~~0xfc) 2 (by decide)]
    simp only [Reader.times_next,Reader.times_none]
    rfl
  split
  · rw [first_masked first (~~~0xfe) 1 (by decide)]
    simp only [Reader.times_next,Reader.times_none]
    rfl
  split
  · simp [Reader.times,Nat.mod_one,orBytes]
  · simp [Reader.times,Nat.mod_one,orBytes]

theorem u64_marshaler_back (v : BitVec 64) : ReadsBack VlqU64Marshaler.marshal VlqU64Marshaler.unmarshal v := by
  intro rest
  rw [marshal_u64,unmarshal_u64]
  exact vlqU64_back v rest

theorem u32_marshaler_back (v : BitVec 32) : ReadsBack VlqU32Marshaler.marshal VlqU32Marshaler.unmarshal v := by
  intro rest
  rw [marshal_u32,unmarshal_u32]
  exact vlqU32_back v rest

theorem u16_marshaler_back (v : BitVec 16) : ReadsBack VlqU16Marshaler.marshal VlqU16Marshaler.unmarshal v := by
  intro rest
  have bound := v.isLt
  have fits : ¬(v.setWidth 32 : BitVec 32) > 0xffff := by bv_omega
  unfold VlqU16Marshaler.unmarshal
  rw [marshal_u16,Reader.bind_ok (u32_marshaler_back (v.setWidth 32) rest),if_neg fits,
    BitVec.setWidth_setWidth (by decide),BitVec.setWidth_eq]
  rfl

-- Some codec gives back every value from any longer buffer, and the bytes of
-- one value are not the beginning of those of another.
def RoundTrips (marshal : α → Bytes) (unmarshal : Read α) : Prop :=
  (∀ v, ReadsBack marshal unmarshal v) ∧ ∀ a b, marshal a <+: marshal b → a = b

theorem round_trips {marshal : α → Bytes} {unmarshal : Read α} (back : ∀ v, ReadsBack marshal unmarshal v) :
    RoundTrips marshal unmarshal := by
  refine ⟨back,?_⟩
  rintro a b ⟨rest,same⟩
  have padded : marshal a ++ rest = marshal b ++ [] := by rw [same,List.append_nil]
  exact (ReadsBack.prefix_free (back a) (back b) padded).1

theorem vlq_round_trip :
    RoundTrips VlqU16Marshaler.marshal VlqU16Marshaler.unmarshal ∧
      RoundTrips VlqU32Marshaler.marshal VlqU32Marshaler.unmarshal ∧
      RoundTrips VlqU64Marshaler.marshal VlqU64Marshaler.unmarshal :=
  ⟨round_trips u16_marshaler_back,round_trips u32_marshaler_back,round_trips u64_marshaler_back⟩

theorem form_length (extra value : Nat) : (vlqForm extra value).length = extra + 1 := by
  rw [vlqForm_map,List.length_cons,List.length_map,List.length_range]

theorem readLeBytes_ok (ran : readLeBytes count bytes = .ok (value,rest)) :
    bytes.length = count + rest.length ∧ value < 256^count := by
  induction count generalizing bytes value rest with
  | zero =>
    cases ran
    exact ⟨(Nat.zero_add _).symm,Nat.one_pos⟩
  | succ count ih =>
    cases bytes with
    | nil => cases ran
    | cons byte bytes =>
      unfold readLeBytes at ran
      rw [Reader.bind_ok (readU8_cons _ _)] at ran
      obtain ⟨high,left,others,last⟩ := Reader.bind_eq_ok.mp ran
      cases last
      obtain ⟨consumed,small⟩ := ih others
      have bound := byte.toNat_lt
      refine ⟨by rw [List.length_cons]; omega,?_⟩
      rw [Nat.pow_succ]
      omega

theorem readVlqForm_ok (ran : readVlqForm extra first bytes = .ok (value,rest)) :
    bytes.length = extra + rest.length ∧ value < 2^(7 - extra)*256^extra := by
  obtain ⟨high,left,others,last⟩ := Reader.bind_eq_ok.mp ran
  cases last
  obtain ⟨consumed,small⟩ := readLeBytes_ok others
  have low : first.toNat % 2^(7 - extra) < 2^(7 - extra) := Nat.mod_lt _ (Nat.two_pow_pos _)
  refine ⟨consumed,?_⟩
  calc first.toNat % 2^(7 - extra) + 2^(7 - extra)*high
      < 2^(7 - extra) + 2^(7 - extra)*high := Nat.add_lt_add_right low _
    _ = 2^(7 - extra)*(high + 1) := by rw [Nat.mul_add,Nat.mul_one,Nat.add_comm]
    _ ≤ 2^(7 - extra)*256^extra := Nat.mul_le_mul_left _ small

-- Every form the decoder accepts for a value has the value's bits in it.
theorem unmarshal_u64_room (ran : VlqU64Marshaler.unmarshal bytes = .ok (v,[])) :
    ∃ extra, bytes.length = extra + 1 ∧ v.toNat < 2^(7 - extra)*256^extra := by
  rw [unmarshal_u64] at ran
  cases bytes with
  | nil => cases ran
  | cons first rest =>
    unfold unmarshalVlqU64 at ran
    rw [Reader.bind_ok (readU8_cons _ _)] at ran
    obtain ⟨value,left,form,last⟩ := Reader.bind_eq_ok.mp ran
    cases last
    obtain ⟨consumed,room⟩ := readVlqForm_ok form
    refine ⟨firstU64Extra first,by rw [List.length_cons,consumed]; rfl,?_⟩
    rw [BitVec.toNat_ofNat]
    exact Nat.lt_of_le_of_lt (Nat.mod_le _ _) room

theorem form_u64_back (v : BitVec 64) (small : extra < 9) (room : v.toNat < 2^(7 - extra)*256^extra) :
    VlqU64Marshaler.unmarshal (vlqForm extra v.toNat) = .ok (v,[]) := by
  have fits : v.toNat / 2^(7 - extra) < 256^extra := (Nat.div_lt_iff_lt_mul (Nat.two_pow_pos _)).mpr (by rwa [Nat.mul_comm])
  obtain ⟨form,low⟩ := first_u64 extra small (v.toNat % 2^(7 - extra)) (Nat.mod_lt _ (Nat.two_pow_pos _))
  have back := form_back fits _ low []
  rw [List.append_nil] at back
  rw [unmarshal_u64]
  unfold unmarshalVlqU64 vlqForm
  rw [Reader.bind_ok (readU8_cons _ _),form,Reader.bind_ok back]
  simp

-- What VlqU64 emits for a value is the shortest of all the bytes its decoder
-- reads back to the value, and for a u32 no longer than what VlqU32 emits.
def Minimal (v : BitVec 64) : Prop :=
  (∀ bytes, VlqU64Marshaler.unmarshal bytes = .ok (v,[]) → (VlqU64Marshaler.marshal v).length ≤ bytes.length) ∧
    ∀ narrow : BitVec 32, narrow.setWidth 64 = v →
      (VlqU64Marshaler.marshal v).length ≤ (VlqU32Marshaler.marshal narrow).length

theorem emitted_u64 (v : BitVec 64) : (VlqU64Marshaler.marshal v).length = vlqU64Extra v.toNat + 1 := by
  rw [marshal_u64]
  exact form_length _ _

theorem emitted_u32 (v : BitVec 32) : (VlqU32Marshaler.marshal v).length = vlqU32Extra v.toNat + 1 := by
  rw [marshal_u32]
  exact form_length _ _

theorem room_mono : ∀ extra < 9, ∀ other ≤ extra, 2^(7 - other)*256^other ≤ 2^(7 - extra)*256^extra := by
  decide +kernel

theorem room_within (room : value < 2^(7 - extra)*256^extra)
    (apart : value < 0x10000000 ∨ 0x800000000 ≤ value) : vlqU64Extra value ≤ extra := by
  by_contra beyond
  have more := Nat.not_le.mp beyond
  have below : ∀ other < 9, extra ≤ other → value < 2^(7 - other)*256^other :=
    fun other bound inside => Nat.lt_of_lt_of_le room (room_mono other bound extra inside)
  unfold vlqU64Extra at more
  split at more
  · exact Nat.not_lt_zero _ more
  split at more
  · exact absurd (below 0 (by decide) (Nat.le_of_lt_succ more)) ‹_›
  split at more
  · exact absurd (below 1 (by decide) (Nat.le_of_lt_succ more)) ‹_›
  split at more
  · exact absurd (below 2 (by decide) (Nat.le_of_lt_succ more)) ‹_›
  split at more
  · omega
  split at more
  · have limit : value < 0x800000000 := below 4 (by decide) (Nat.le_of_lt_succ more)
    omega
  split at more
  · exact absurd (below 5 (by decide) (Nat.le_of_lt_succ more)) ‹_›
  split at more
  · exact absurd (below 6 (by decide) (Nat.le_of_lt_succ more)) ‹_›
  · exact absurd (below 7 (by decide) (Nat.le_of_lt_succ more)) ‹_›

theorem within_u32 (small : value < 0x10000000) : vlqU64Extra value ≤ vlqU32Extra value := by
  unfold vlqU64Extra vlqU32Extra
  by_cases one : value < 0x80
  · rw [if_pos one,if_pos one]
  by_cases two : value < 0x4000
  · rw [if_neg one,if_neg one,if_pos two,if_pos two]
  by_cases three : value < 0x200000
  · rw [if_neg one,if_neg one,if_neg two,if_neg two,if_pos three,if_pos three]
  · rw [if_neg one,if_neg one,if_neg two,if_neg two,if_neg three,if_neg three,if_pos small,if_pos small]

-- The fifth form is never taken: its bound 0x08000000 is below that of the
-- fourth, and the values it is for go out in six bytes.
theorem fifth_form_skipped (large : 0x10000000 ≤ value) (small : value < 0x800000000) : vlqU64Extra value = 5 := by
  unfold vlqU64Extra
  repeat' split
  all_goals omega

theorem vlq_minimal (v : BitVec 64) : Minimal v ↔ v.toNat < 0x10000000 ∨ 0x800000000 ≤ v.toNat := by
  constructor
  · intro minimal
    by_contra between
    have large : 0x10000000 ≤ v.toNat := by omega
    have small : v.toNat < 0x800000000 := by omega
    have five := minimal.1 _ (form_u64_back v (by decide : 4 < 9) small)
    rw [emitted_u64,form_length,fifth_form_skipped large small] at five
    omega
  · intro apart
    constructor
    · intro bytes ran
      obtain ⟨extra,sized,room⟩ := unmarshal_u64_room ran
      rw [emitted_u64,sized]
      exact Nat.succ_le_succ (room_within room apart)
    · rintro narrow rfl
      have same : (narrow.setWidth 64).toNat = narrow.toNat := BitVec.toNat_setWidth_of_le (by decide)
      have bound := narrow.isLt
      rw [same] at apart
      rw [emitted_u64,emitted_u32,same]
      exact Nat.succ_le_succ (within_u32 (by omega))

theorem six_bytes_for_five : ¬Minimal 0x10000000 := by
  intro minimal
  have shorter := minimal.1 [0xf0,0,0,0,2] (by decide +kernel)
  exact absurd shorter (by decide +kernel)

end NwNetwork.Serialize
