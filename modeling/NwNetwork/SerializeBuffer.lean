import NwNetwork.WireReader

namespace NwNetwork.Serialize
open WireReader

structure Uuid where
  bytes : Bytes
  sized : bytes.length = 16
  deriving DecidableEq, Repr

-- The errors of other crates that the enum wraps stand as their texts.
inductive MarshalerError where
  | bufferUnderrun (needed available : Nat)
  | invalidDiscriminant (value : UInt8)
  | invalidRange (value min max : Nat)
  | containerOverflow (len capacity : Nat)
  | stringOverflow (len capacity : Nat)
  | utf8 (source : String)
  | uuid (source : String)
  | parseInt (source : String)
  | crcMismatch (expected actual : BitVec 32)
  | truncatedPayload (declared available : Nat)
  | invalidEnvelopeFlags (flags : UInt8)
  | emptyEnvelope
  | messageTypeMismatch (expected actual : BitVec 32)
  | unknownTypeIndex (typeIndex : BitVec 32)
  | unknownClassUuid (uuid : Uuid)
  | nullPolymorphicValue
  deriving DecidableEq, Repr

-- Lower-case hexadecimal, filled up with zeros on the left.
def hexText (digits value : Nat) : String :=
  let shown := Nat.toDigits 16 value
  String.ofList (List.replicate (digits - shown.length) '0' ++ shown)

def Uuid.text (uuid : Uuid) : String :=
  let part (start count : Nat) := String.join (((uuid.bytes.drop start).take count).map fun byte => hexText 2 byte.toNat)
  String.intercalate "-" [part 0 4,part 4 2,part 6 2,part 8 2,part 10 6]

def MarshalerError.text : MarshalerError → String
  | .bufferUnderrun needed available => s!"buffer underrun (needed {needed} bytes, had {available})"
  | .invalidDiscriminant value => s!"invalid enum discriminant {value}"
  | .invalidRange value min max => s!"value {value} is outside valid range {min}..={max}"
  | .containerOverflow len capacity => s!"container length {len} exceeds capacity {capacity}"
  | .stringOverflow len capacity => s!"string length {len} exceeds capacity {capacity}"
  | .utf8 source => s!"utf8 error: {source}"
  | .uuid source => s!"uuid error: {source}"
  | .parseInt source => s!"parse int error: {source}"
  | .crcMismatch expected actual =>
    s!"crc mismatch expected={hexText 8 expected.toNat} actual={hexText 8 actual.toNat}"
  | .truncatedPayload declared available => s!"payload truncated declared={declared} available={available}"
  | .invalidEnvelopeFlags flags => s!"invalid message envelope flags {flags}"
  | .emptyEnvelope => "empty message envelope (envelope_flags=0)"
  | .messageTypeMismatch expected actual => s!"message type mismatch expected={expected.toNat} actual={actual.toNat}"
  | .unknownTypeIndex type_index => s!"unknown compact type_index {type_index.toNat}"
  | .unknownClassUuid class_uuid => s!"polymorphic value carried unknown class UUID {class_uuid.text}"
  | .nullPolymorphicValue => "actor instantiation parameter carried a null polymorphic value"

abbrev Read (α : Type) := Reader MarshalerError α

-- A read buffer is its unread bytes: the position of the source is the number
-- of bytes already dropped, and every modelled buffer is big-endian.
def readU8 : Read UInt8
  | [] => .error (.bufferUnderrun 1 0)
  | value :: rest => .ok (value,rest)

def readU16 : Read (BitVec 16)
  | high :: low :: rest => .ok (BitVec.ofNat 16 (high.toNat*256 + low.toNat),rest)
  | bytes => .error (.bufferUnderrun 2 bytes.length)

def readBytes (len : Nat) : Read Bytes := fun bytes =>
  if len ≤ bytes.length then .ok (bytes.take len,bytes.drop len)
  else .error (.bufferUnderrun len bytes.length)

def writeU8 (value : UInt8) : Bytes := [value]

def writeU16 (value : BitVec 16) : Bytes :=
  [UInt8.ofNat (value.toNat / 256),UInt8.ofNat (value.toNat % 256)]

def beBytes : Nat → Nat → Bytes
  | 0,_ => []
  | count+1,value => UInt8.ofNat (value / 256^count % 256) :: beBytes count value

def fromBeBytes (bytes : Bytes) : Nat := bytes.foldl (fun value byte => value*256 + byte.toNat) 0

def writeU32 (value : BitVec 32) : Bytes := beBytes 4 value.toNat

def readU32 : Read (BitVec 32) := do
  let bytes ← readBytes 4
  pure (BitVec.ofNat 32 (fromBeBytes bytes))

def writeU64 (value : BitVec 64) : Bytes := beBytes 8 value.toNat

def readU64 : Read (BitVec 64) := do
  let bytes ← readBytes 8
  pure (BitVec.ofNat 64 (fromBeBytes bytes))

def readUuid : Read Uuid := fun bytes =>
  if enough : 16 ≤ bytes.length then .ok (⟨bytes.take 16,by simp [enough]⟩,bytes.drop 16)
  else .error (.bufferUnderrun 16 bytes.length)

@[simp] theorem toOption_ok (value : α) : (Except.ok value : Except ε α).toOption = some value := rfl

@[simp] theorem readU8_cons (value : UInt8) (rest : Bytes) :
    readU8 (value :: rest) = .ok (value,rest) := rfl

theorem u8_back (value : UInt8) : ReadsBack writeU8 readU8 value := fun _ => rfl

@[simp] theorem readU16_writeU16 (value : BitVec 16) (rest : Bytes) :
    readU16 (writeU16 value ++ rest) = .ok (value,rest) := by
  have bound := value.isLt
  have bytes : value.toNat / 256 % 256 * 256 + value.toNat % 256 = value.toNat := by omega
  simp [writeU16,readU16,bytes]

theorem u16_back (value : BitVec 16) : ReadsBack writeU16 readU16 value := readU16_writeU16 value

theorem u8_only : ReadsOnly writeU8 readU8 := by
  intro bytes value rest ran
  cases bytes with
  | nil => cases ran
  | cons byte others => cases ran; rfl

theorem u16_only : ReadsOnly writeU16 readU16 := by
  intro bytes value rest ran
  unfold readU16 at ran
  split at ran
  · rename_i high low others
    cases ran
    have first := high.toNat_lt
    have second := low.toNat_lt
    have highByte : (high.toNat*256 + low.toNat) % 65536 / 256 = high.toNat := by omega
    have lowByte : (high.toNat*256 + low.toNat) % 65536 % 256 = low.toNat := by omega
    simp [writeU16,highByte,lowByte]
  · cases ran

@[simp] theorem writeU16_length (value : BitVec 16) : (writeU16 value).length = 2 := rfl

@[simp] theorem readBytes_append (bytes rest : Bytes) :
    readBytes bytes.length (bytes ++ rest) = .ok (bytes,rest) := by
  simp [readBytes]

theorem readBytes_ok (ran : readBytes len bytes = .ok (taken,rest)) :
    bytes = taken ++ rest ∧ taken.length = len := by
  unfold readBytes at ran
  split at ran
  · rename_i enough
    cases ran
    exact ⟨(List.take_append_drop len bytes).symm,by simp [enough]⟩
  · cases ran

theorem uuid_back (uuid : Uuid) : ReadsBack Uuid.bytes readUuid uuid := by
  intro rest
  obtain ⟨bytes,sized⟩ := uuid
  have enough : 16 ≤ (bytes ++ rest).length := by rw [List.length_append]; omega
  unfold readUuid
  rw [dif_pos enough]
  simp [← sized]

@[simp] theorem beBytes_length (count value : Nat) : (beBytes count value).length = count := by
  induction count with
  | zero => rfl
  | succ count ih => rw [beBytes,List.length_cons,ih]

theorem fromBeBytes_beBytes (count value : Nat) : fromBeBytes (beBytes count value) = value % 256^count := by
  have from_any : ∀ high, (beBytes count value).foldl (fun value byte => value*256 + byte.toNat) high =
      high*256^count + value % 256^count := by
    induction count with
    | zero => intro high; simp [beBytes,Nat.mod_one]
    | succ count ih =>
      intro high
      have byte : (UInt8.ofNat (value / 256^count % 256)).toNat = value / 256^count % 256 := by simp
      have split : value % 256^(count+1) = value % 256^count + 256^count*(value / 256^count % 256) := by
        rw [Nat.pow_succ]
        exact Nat.mod_mul
      rw [beBytes,List.foldl_cons,ih,byte,split,Nat.pow_succ,Nat.add_mul]
      ac_rfl
  exact (from_any 0).trans (by rw [Nat.zero_mul,Nat.zero_add])

theorem u32_back (value : BitVec 32) : ReadsBack writeU32 readU32 value := by
  intro rest
  have read := readBytes_append (writeU32 value) rest
  have same : fromBeBytes (writeU32 value) = value.toNat :=
    (fromBeBytes_beBytes 4 value.toNat).trans (Nat.mod_eq_of_lt value.isLt)
  unfold writeU32 at *
  rw [beBytes_length] at read
  unfold readU32
  rw [Reader.bind_ok read,same,BitVec.ofNat_toNat,BitVec.setWidth_eq]
  rfl

theorem u64_back (value : BitVec 64) : ReadsBack writeU64 readU64 value := by
  intro rest
  have read := readBytes_append (writeU64 value) rest
  have same : fromBeBytes (writeU64 value) = value.toNat :=
    (fromBeBytes_beBytes 8 value.toNat).trans (Nat.mod_eq_of_lt value.isLt)
  unfold writeU64 at *
  rw [beBytes_length] at read
  unfold readU64
  rw [Reader.bind_ok read,same,BitVec.ofNat_toNat,BitVec.setWidth_eq]
  rfl

end NwNetwork.Serialize
