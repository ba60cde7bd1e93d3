import NwNetwork.SerializeBuffer
import NwNetwork.StreamLoop

namespace NwNetwork.Serialize
open WireReader

-- The first byte says with its leading ones how many bytes follow it, and has
-- the lowest bits of the value in what they leave of it. The masks and shifts
-- of the source are remainders and quotients by powers of two here.
def vlqMark (extra : Nat) : Nat := 256 - 2^(8 - extra)

def leBytes : Nat → Nat → Bytes
  | 0,_ => []
  | count+1,value => UInt8.ofNat (value % 256) :: leBytes count (value / 256)

def readLeBytes : Nat → Read Nat
  | 0 => pure 0
  | count+1 => do
    let byte ← readU8
    let high ← readLeBytes count
    pure (byte.toNat + 256*high)

def vlqForm (extra value : Nat) : Bytes :=
  UInt8.ofNat (vlqMark extra + value % 2^(7 - extra)) :: leBytes extra (value / 2^(7 - extra))

def readVlqForm (extra : Nat) (first : UInt8) : Read Nat := do
  let high ← readLeBytes extra
  pure (first.toNat % 2^(7 - extra) + 2^(7 - extra)*high)

def vlqU32Extra (v : Nat) : Nat :=
  if v < 0x80 then 0
  else if v < 0x4000 then 1
  else if v < 0x200000 then 2
  else if v < 0x10000000 then 3
  else 4

def vlqU64Extra (v : Nat) : Nat :=
  if v < 0x80 then 0
  else if v < 0x4000 then 1
  else if v < 0x200000 then 2
  else if v < 0x10000000 then 3
  else if v < 0x0000000008000000 then 4
  else if v < 0x0000040000000000 then 5
  else if v < 0x0002000000000000 then 6
  else if v < 0x0100000000000000 then 7
  else 8

def marshalVlqU32 (v : BitVec 32) : Bytes := vlqForm (vlqU32Extra v.toNat) v.toNat

def marshalVlqU64 (v : BitVec 64) : Bytes := vlqForm (vlqU64Extra v.toNat) v.toNat

def firstU32Extra (first : UInt8) : Nat :=
  if first < 0x80 then 0
  else if first < 0xc0 then 1
  else if first < 0xe0 then 2
  else if first < 0xf0 then 3
  else 4

def firstU64Extra (first : UInt8) : Nat :=
  if first < 0x80 then 0
  else if first < 0xc0 then 1
  else if first < 0xe0 then 2
  else if first < 0xf0 then 3
  else if first < 0xf8 then 4
  else if first < 0xfc then 5
  else if first < 0xfe then 6
  else if first < 0xff then 7
  else 8

-- A fifth byte has bits that a u32 does not: they are lost.
def unmarshalVlqU32 : Read (BitVec 32) := do
  let first ← readU8
  let value ← readVlqForm (firstU32Extra first) first
  pure (BitVec.ofNat 32 value)

def unmarshalVlqU64 : Read (BitVec 64) := do
  let first ← readU8
  let value ← readVlqForm (firstU64Extra first) first
  pure (BitVec.ofNat 64 value)

theorem leBytes_back {count value : Nat} (fits : value < 256^count) (rest : Bytes) :
    readLeBytes count (leBytes count value ++ rest) = .ok (value,rest) := by
  induction count generalizing value with
  | zero =>
    have zero : value = 0 := by simpa using fits
    rw [zero]
    rfl
  | succ count ih =>
    have smaller : value / 256 < 256^count := by
      rw [Nat.div_lt_iff_lt_mul (by decide),← Nat.pow_succ]
      exact fits
    have split : value % 256 + 256*(value / 256) = value := Nat.mod_add_div value 256
    unfold leBytes readLeBytes
    rw [List.cons_append,Reader.bind_ok (readU8_cons _ _),Reader.bind_ok (ih smaller)]
    simp [split]

theorem form_back {extra value : Nat} (fits : value / 2^(7 - extra) < 256^extra) (first : UInt8)
    (low : first.toNat % 2^(7 - extra) = value % 2^(7 - extra)) (rest : Bytes) :
    readVlqForm extra first (leBytes extra (value / 2^(7 - extra)) ++ rest) = .ok (value,rest) := by
  unfold readVlqForm
  rw [Reader.bind_ok (leBytes_back fits rest),low,Nat.mod_add_div]
  rfl

theorem first_u32 : ∀ extra < 5, ∀ low < 2^(7 - extra),
    firstU32Extra (UInt8.ofNat (vlqMark extra + low)) = extra ∧
      (UInt8.ofNat (vlqMark extra + low)).toNat % 2^(7 - extra) = low := by decide +kernel

theorem first_u64 : ∀ extra < 9, ∀ low < 2^(7 - extra),
    firstU64Extra (UInt8.ofNat (vlqMark extra + low)) = extra ∧
      (UInt8.ofNat (vlqMark extra + low)).toNat % 2^(7 - extra) = low := by decide +kernel

theorem vlqU32Extra_fits (v : BitVec 32) :
    vlqU32Extra v.toNat < 5 ∧ v.toNat / 2^(7 - vlqU32Extra v.toNat) < 256^vlqU32Extra v.toNat := by
  have bound := v.isLt
  unfold vlqU32Extra
  repeat' split
  all_goals omega

theorem vlqU64Extra_fits (v : BitVec 64) :
    vlqU64Extra v.toNat < 9 ∧ v.toNat / 2^(7 - vlqU64Extra v.toNat) < 256^vlqU64Extra v.toNat := by
  have bound := v.isLt
  unfold vlqU64Extra
  repeat' split
  all_goals omega

theorem vlqU32_back (v : BitVec 32) : ReadsBack marshalVlqU32 unmarshalVlqU32 v := by
  intro rest
  obtain ⟨small,fits⟩ := vlqU32Extra_fits v
  obtain ⟨form,low⟩ := first_u32 _ small (v.toNat % 2^(7 - vlqU32Extra v.toNat)) (Nat.mod_lt _ (Nat.two_pow_pos _))
  unfold marshalVlqU32 unmarshalVlqU32 vlqForm
  rw [List.cons_append,Reader.bind_ok (readU8_cons _ _),form,Reader.bind_ok (form_back fits _ low rest)]
  simp

theorem vlqU64_back (v : BitVec 64) : ReadsBack marshalVlqU64 unmarshalVlqU64 v := by
  intro rest
  obtain ⟨small,fits⟩ := vlqU64Extra_fits v
  obtain ⟨form,low⟩ := first_u64 _ small (v.toNat % 2^(7 - vlqU64Extra v.toNat)) (Nat.mod_lt _ (Nat.two_pow_pos _))
  unfold marshalVlqU64 unmarshalVlqU64 vlqForm
  rw [List.cons_append,Reader.bind_ok (readU8_cons _ _),form,Reader.bind_ok (form_back fits _ low rest)]
  simp

theorem shortens_readU8 : Shortens readU8 := by
  intro bytes value left ran
  cases bytes with
  | nil => cases ran
  | cons byte rest => cases ran; exact Nat.lt_succ_self _

theorem keeps_readBytes (len : Nat) : Keeps (readBytes len) := by
  intro bytes value left ran
  obtain ⟨split,_⟩ := readBytes_ok ran
  rw [split,List.length_append]
  exact Nat.le_add_left _ _

theorem keeps_readUuid : Keeps readUuid := by
  intro bytes value left ran
  unfold readUuid at ran
  split at ran
  · cases ran
    rw [List.length_drop]; omega
  · cases ran

theorem keeps_readLeBytes (count : Nat) : Keeps (readLeBytes count) := by
  induction count with
  | zero => exact keeps_pure 0
  | succ count ih => exact shortens_readU8.keeps.bind fun byte => ih.bind fun high => keeps_pure _

theorem shortens_vlqU32 : Shortens unmarshalVlqU32 := by
  refine shortens_readU8.bind fun first => ?_
  apply Keeps.bind
  · exact (keeps_readLeBytes _).bind fun high => keeps_pure _
  · exact fun value => keeps_pure _

theorem readLeBytes_error (failed : readLeBytes count bytes = .error error) :
    ∃ needed available, error = .bufferUnderrun needed available := by
  induction count generalizing bytes with
  | zero => cases failed
  | succ count ih =>
    cases bytes with
    | nil => cases failed; exact ⟨_,_,rfl⟩
    | cons byte rest =>
      unfold readLeBytes at failed
      rw [Reader.bind_ok (readU8_cons _ _)] at failed
      cases high : readLeBytes count rest with
      | error inner =>
        rw [Reader.bind_error high] at failed
        cases failed
        exact ih high
      | ok pair =>
        rw [Reader.bind_ok high] at failed
        cases failed

theorem vlqU32_error (failed : unmarshalVlqU32 bytes = .error error) :
    ∃ needed available, error = .bufferUnderrun needed available := by
  cases bytes with
  | nil => cases failed; exact ⟨_,_,rfl⟩
  | cons first rest =>
    unfold unmarshalVlqU32 readVlqForm at failed
    rw [Reader.bind_ok (readU8_cons _ _)] at failed
    cases high : readLeBytes (firstU32Extra first) rest with
    | error inner =>
      rw [Reader.bind_error (Reader.bind_error high)] at failed
      cases failed
      exact readLeBytes_error high
    | ok pair =>
      rw [Reader.bind_ok (Reader.bind_ok high)] at failed
      cases failed

end NwNetwork.Serialize
