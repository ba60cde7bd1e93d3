import Mathlib.Algebra.Ring.Nat

namespace ByteBits

def hasBit (byte : UInt8) (bit : Nat) : Bool := byte &&& (1 <<< UInt8.ofNat bit) != 0

theorem and_or_split (one two mask : UInt8) : (one ||| two) &&& mask = one &&& mask ||| two &&& mask := by
  apply UInt8.eq_of_toBitVec_eq
  ext i
  simp only [UInt8.toBitVec_and,UInt8.toBitVec_or,BitVec.getElem_and,BitVec.getElem_or]
  exact Bool.and_or_distrib_right _ _ _

theorem hasBit_or (one two : UInt8) (bit : Nat) : hasBit (one ||| two) bit = (hasBit one bit || hasBit two bit) := by
  have split : ((one ||| two) &&& (1 <<< UInt8.ofNat bit) = 0) ↔
      one &&& (1 <<< UInt8.ofNat bit) = 0 ∧ two &&& (1 <<< UInt8.ofNat bit) = 0 := by
    rw [and_or_split]
    exact UInt8.or_eq_zero_iff
  unfold hasBit
  rw [Bool.eq_iff_iff]
  simp only [bne_iff_ne,Bool.or_eq_true,ne_eq,split]
  exact Decidable.not_and_iff_not_or_not

theorem hasBit_zero (bit : Nat) : hasBit 0 bit = false := by simp [hasBit]

theorem hasBit_one {place bit : Nat} (one : place < 8) (other : bit < 8) :
    hasBit (1 <<< UInt8.ofNat place) bit = decide (place = bit) := by
  have all : ∀ a b : Fin 8, hasBit (1 <<< UInt8.ofNat a.val) b.val = decide (a.val = b.val) := by decide
  exact all ⟨place,one⟩ ⟨bit,other⟩

theorem single_bit (place bit : Fin 8) : (1 <<< UInt8.ofNat place.val : UInt8).toBitVec.getLsbD bit.val = decide (place = bit) := by
  revert place bit
  decide

theorem hasBit_getLsbD (byte : UInt8) (small : bit < 8) : hasBit byte bit = byte.toBitVec.getLsbD bit := by
  have bits : ∀ other, other < 8 →
      (byte &&& 1 <<< UInt8.ofNat bit).toBitVec.getLsbD other = (byte.toBitVec.getLsbD other && decide (bit = other)) := by
    intro other inside
    have single := single_bit ⟨bit,small⟩ ⟨other,inside⟩
    rw [UInt8.toBitVec_and,BitVec.getLsbD_and,single]
    simp
  unfold hasBit
  cases set : byte.toBitVec.getLsbD bit with
  | true =>
    rw [bne_iff_ne]
    intro zero
    have read := bits bit small
    rw [zero,set,decide_eq_true rfl] at read
    simp at read
  | false =>
    rw [bne_eq_false_iff_eq]
    apply UInt8.eq_of_toBitVec_eq
    apply BitVec.eq_of_getLsbD_eq
    intro other inside
    rw [bits other inside]
    by_cases same : bit = other
    · subst same
      simp [set]
    · simp [same]
theorem eq_of_bits {one two : UInt8} (same : ∀ bit, bit < 8 → hasBit one bit = hasBit two bit) : one = two := by
  apply UInt8.eq_of_toBitVec_eq
  apply BitVec.eq_of_getLsbD_eq
  intro bit small
  rw [← hasBit_getLsbD one small,← hasBit_getLsbD two small]
  exact same bit small

theorem hasBit_without {place bit : Nat} (byte : UInt8) (one : place < 8) (small : bit < 8) :
    hasBit (byte &&& ~~~(1 <<< UInt8.ofNat place)) bit = (hasBit byte bit && decide (place ≠ bit)) := by
  have single := hasBit_one one small
  rw [hasBit_getLsbD _ small] at single ⊢
  rw [hasBit_getLsbD _ small,UInt8.toBitVec_and,UInt8.toBitVec_not,BitVec.getLsbD_and,BitVec.getLsbD_not,single,
    decide_eq_true small,Bool.true_and,← decide_not]

-- A mask with one bit for each flag, from a first bit on.
def maskFrom (mask : UInt8) (bit : Nat) : List Bool → UInt8
  | [] => mask
  | flag :: flags => maskFrom (if flag then mask ||| 1 <<< UInt8.ofNat bit else mask) (bit + 1) flags

theorem maskFrom_reads {mask : UInt8} {start bit : Nat} {flags : List Bool} (fits : start + flags.length ≤ 8)
    (small : bit < 8) : hasBit (maskFrom mask start flags) bit =
      (hasBit mask bit || (decide (start ≤ bit) && flags.getD (bit - start) false)) := by
  induction flags generalizing mask start with
  | nil => simp [maskFrom]
  | cons flag flags ih =>
    rw [List.length_cons] at fits
    unfold maskFrom
    rw [ih (by omega)]
    have head : hasBit (if flag then mask ||| 1 <<< UInt8.ofNat start else mask) bit =
        (hasBit mask bit || (flag && decide (start = bit))) := by
      cases flag with
      | false => simp
      | true =>
        rw [if_pos rfl,hasBit_or,hasBit_one (by omega) small]
        simp
    rw [head]
    rcases Nat.lt_trichotomy bit start with before | rfl | later
    · have apart : start ≠ bit := by omega
      have early : ¬start ≤ bit := by omega
      have earlier : ¬start + 1 ≤ bit := by omega
      simp [apart,early,earlier]
    · have past : ¬bit + 1 ≤ bit := by omega
      simp [past]
    · have apart : start ≠ bit := by omega
      have within : start ≤ bit := by omega
      have inside : start + 1 ≤ bit := by omega
      have next : bit - start = (bit - (start + 1)) + 1 := by omega
      simp [apart,within,inside,next]

theorem flags_read {flags : List Bool} (fits : flags.length ≤ 8) (small : bit < 8) :
    hasBit (maskFrom 0 0 flags) bit = flags.getD bit false := by
  rw [maskFrom_reads (by omega) small]
  simp [hasBit_zero]

theorem hasBit_top (small : bit < 8) : hasBit 0x80 bit = decide (7 = bit) := by
  have place : (0x80 : UInt8) = 1 <<< UInt8.ofNat 7 := by decide
  rw [place]
  exact hasBit_one (by decide) small

theorem top_bit (mask : UInt8) : (mask &&& 0x80 == 0) = !hasBit mask 7 := by
  unfold hasBit
  exact (Bool.not_not _).symm

theorem maskFrom_clear {mask : UInt8} {start : Nat} {flags : List Bool} (clear : flags.any (fun flag => flag) = false) :
    maskFrom mask start flags = mask := by
  induction flags generalizing start with
  | nil => rfl
  | cons flag flags ih =>
    rw [List.any_cons,Bool.or_eq_false_iff] at clear
    obtain ⟨rfl,clear⟩ := clear
    exact ih clear

def wide (byte : UInt8) : BitVec 32 := BitVec.ofNat 32 byte.toNat

-- Four bytes are numbered from zero.
theorem four_bytes : NeZero 4 := ⟨by decide⟩

attribute [local instance] four_bytes

-- A word of four bytes, the first the lowest.
def word (bytes : Fin 4 → UInt8) : BitVec 32 :=
  wide (bytes 3) <<< 24 ||| wide (bytes 2) <<< 16 ||| wide (bytes 1) <<< 8 ||| wide (bytes 0)

def byteAt (value : BitVec 32) (place : Nat) : UInt8 := UInt8.ofNat (value >>> (8*place) &&& 0xff).toNat

theorem wide_bit (byte : UInt8) (inside : bit < 32) : (wide byte).getLsbD bit = byte.toBitVec.getLsbD bit := by
  have same : wide byte = byte.toBitVec.setWidth 32 := BitVec.ofNat_toNat 32 byte.toBitVec
  rw [same,BitVec.getLsbD_setWidth,decide_eq_true inside,Bool.true_and]

theorem byteAt_bit (value : BitVec 32) (place : Nat) (inside : bit < 8) :
    (byteAt value place).toBitVec.getLsbD bit = value.getLsbD (8*place + bit) := by
  have low : (0xff : BitVec 32).getLsbD bit = true := by
    have all : ∀ k : Fin 8, (0xff : BitVec 32).getLsbD k.val = true := by decide
    exact all ⟨bit,inside⟩
  have same : (byteAt value place).toBitVec = (value >>> (8*place) &&& 0xff).setWidth 8 := rfl
  rw [same,BitVec.getLsbD_setWidth,decide_eq_true inside,Bool.true_and,BitVec.getLsbD_and,low,Bool.and_true,
    BitVec.getLsbD_ushiftRight]

theorem byte_high (byte : UInt8) (past : 8 ≤ bit) : byte.toBitVec.getLsbD bit = false := BitVec.getLsbD_of_ge _ _ past

theorem word_bit (bytes : Fin 4 → UInt8) (place : Fin 4) (inside : bit < 8) :
    (word bytes).getLsbD (8*place.val + bit) = (bytes place).toBitVec.getLsbD bit := by
  have bound := place.isLt
  have within : 8*place.val + bit < 32 := by omega
  have shifted : ∀ (byte : UInt8) (other : Nat), other ≤ 3 → (wide byte <<< (8*other)).getLsbD (8*place.val + bit) =
      (decide (place.val = other) && byte.toBitVec.getLsbD bit) := by
    intro byte other small
    rw [BitVec.getLsbD_shiftLeft,decide_eq_true within,Bool.true_and]
    rcases Nat.lt_trichotomy place.val other with below | rfl | above
    · have before : 8*place.val + bit < 8*other := by omega
      rw [decide_eq_true before,decide_eq_false (Nat.ne_of_lt below)]
      rfl
    · have here : ¬8*place.val + bit < 8*place.val := by omega
      rw [decide_eq_false here,decide_eq_true rfl,Nat.add_sub_cancel_left,wide_bit byte (by omega)]
      rfl
    · have after : ¬8*place.val + bit < 8*other := by omega
      rw [decide_eq_false after,decide_eq_false (Nat.ne_of_gt above),wide_bit byte (by omega),byte_high byte (by omega)]
      rfl
  have top := shifted (bytes 3) 3 (by decide)
  have upper := shifted (bytes 2) 2 (by decide)
  have lower := shifted (bytes 1) 1 (by decide)
  have bottom := shifted (bytes 0) 0 (by decide)
  rw [BitVec.shiftLeft_zero] at bottom
  unfold word
  rw [BitVec.getLsbD_or,BitVec.getLsbD_or,BitVec.getLsbD_or,top,upper,lower,bottom]
  match place with
  | ⟨0,_⟩ | ⟨1,_⟩ | ⟨2,_⟩ | ⟨3,_⟩ => simp

theorem byteAt_word (bytes : Fin 4 → UInt8) (place : Fin 4) : byteAt (word bytes) place = bytes place := by
  apply UInt8.eq_of_toBitVec_eq
  apply BitVec.eq_of_getLsbD_eq
  intro bit inside
  rw [byteAt_bit _ _ inside,word_bit bytes place inside]

theorem word_byteAt (value : BitVec 32) : word (fun place => byteAt value place.val) = value := by
  apply BitVec.eq_of_getLsbD_eq
  intro bit inside
  have split : 8*(bit / 8) + bit % 8 = bit := by omega
  have small : bit % 8 < 8 := Nat.mod_lt _ (by decide)
  have read := word_bit (fun place => byteAt value place.val) ⟨bit / 8,by omega⟩ small
  dsimp only at read
  rwa [byteAt_bit _ _ small,split] at read

-- Where two words agree on the bits of a byte they have the same byte.
theorem byteAt_agree {one two mask : BitVec 32} (clear : (one ^^^ two) &&& mask = 0)
    (covered : ∀ bit, bit < 8 → mask.getLsbD (8*place + bit) = true) : byteAt one place = byteAt two place := by
  apply UInt8.eq_of_toBitVec_eq
  apply BitVec.eq_of_getLsbD_eq
  intro bit inside
  have at_bit : ((one ^^^ two) &&& mask).getLsbD (8*place + bit) = (0 : BitVec 32).getLsbD (8*place + bit) := by rw [clear]
  rw [BitVec.getLsbD_and,covered bit inside,Bool.and_true,BitVec.getLsbD_xor] at at_bit
  rw [byteAt_bit _ _ inside,byteAt_bit _ _ inside]
  simpa using at_bit

end ByteBits
