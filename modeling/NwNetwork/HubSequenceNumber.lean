import NwNetwork.SerializeVlq

namespace NwNetwork.Hub
open WireReader Serialize

-- One space of 64-bit values: the largest one is invalid, zero is valid without
-- being a sequence.
inductive SequenceNumber where
  | invalid
  | validNonSequence
  | seq (sequence : BitVec 64)
  deriving DecidableEq, Repr

namespace SequenceNumber

def invalidSequenceValue : BitVec 64 := BitVec.allOnes 64
def validNonSequenceValue : BitVec 64 := 0

def rawValue : SequenceNumber → BitVec 64
  | invalid => invalidSequenceValue
  | validNonSequence => validNonSequenceValue
  | seq sequence => sequence

def fromRaw (sequence : BitVec 64) : SequenceNumber :=
  if sequence = validNonSequenceValue then validNonSequence
  else if sequence = invalidSequenceValue then invalid
  else seq sequence

def isValid (number : SequenceNumber) : Bool := number.rawValue != invalidSequenceValue

-- Invalid is below every other number.
def cmp (left right : SequenceNumber) : Ordering :=
  if left.rawValue = invalidSequenceValue then
    if right.rawValue = invalidSequenceValue then .eq else .lt
  else if right.rawValue = invalidSequenceValue then .gt
  else compare left.rawValue.toNat right.rawValue.toNat

def less (left right : SequenceNumber) : Bool := left.cmp right == .lt

def max (left right : SequenceNumber) : SequenceNumber := if right.less left then left else right

-- A number a stream really uses.
def IsReal (number : SequenceNumber) : Prop :=
  ∃ sequence, number = seq sequence ∧ sequence ≠ validNonSequenceValue ∧ sequence ≠ invalidSequenceValue

def rank (number : SequenceNumber) : Nat := if number.isValid then number.rawValue.toNat + 1 else 0

section Order
variable {a b c : SequenceNumber}

theorem less_iff : a.less b = true ↔ a.rank < b.rank := by
  unfold less cmp rank isValid
  by_cases left : a.rawValue = invalidSequenceValue <;> by_cases right : b.rawValue = invalidSequenceValue
  · simp [left,right]
  · simp [left,right]
  · simp [left,right]
  · simp [left,right,Nat.compare_eq_lt]

theorem less_trans (first : a.less b = true) (second : b.less c = true) : a.less c = true := by
  rw [less_iff] at *
  exact Nat.lt_trans first second

theorem less_valid (above : a.less b = true) : b.isValid = true := by
  rw [less_iff] at above
  unfold rank at above
  cases valid : b.isValid with
  | true => rfl
  | false => simp [valid] at above

theorem not_less_self (a : SequenceNumber) : a.less a = false := by
  rw [Bool.eq_false_iff,ne_eq,less_iff]
  exact Nat.lt_irrefl _

theorem invalid_below (valid : a.isValid = true) : invalid.less a = true := by
  rw [less_iff]
  unfold rank
  rw [valid]
  exact Nat.succ_pos _

theorem real_valid (real : IsReal a) : a.isValid = true := by
  obtain ⟨sequence,rfl,_,used⟩ := real
  simpa [isValid,rawValue] using used

@[simp] theorem invalid_isValid : invalid.isValid = false := rfl
@[simp] theorem validNonSequence_isValid : validNonSequence.isValid = true := rfl

end Order
-- Two numbers are the same when their raw values are.
def sameAs (left right : SequenceNumber) : Bool := left.rawValue == right.rawValue

-- The number a raw value stands for.
def normalized (number : SequenceNumber) : SequenceNumber := fromRaw number.rawValue

-- What a change list's reader makes of a number it reads behind `previous`: zero
-- stands for that one again.
def readAfter (previous number : SequenceNumber) : SequenceNumber :=
  if number.sameAs .validNonSequence then previous else number.normalized

def marshal (number : SequenceNumber) : Bytes :=
  match number.normalized with
  | invalid => writeU8 0
  | validNonSequence => writeU8 1 ++ marshalVlqU64 0
  | seq sequence => writeU8 1 ++ marshalVlqU64 sequence

def unmarshal : Read SequenceNumber := do
  let discriminant ← readU8
  if discriminant = 0 then pure invalid
  else if discriminant = 1 then do
    let sequence ← unmarshalVlqU64
    pure (fromRaw sequence)
  else Reader.fail (.invalidDiscriminant discriminant)

section Wire
variable {number : SequenceNumber}

theorem fromRaw_rawValue (sequence : BitVec 64) : (fromRaw sequence).rawValue = sequence := by
  unfold fromRaw
  split
  · rename_i zero
    exact zero.symm
  · split
    · rename_i top
      exact top.symm
    · rfl

theorem normalized_rawValue (number : SequenceNumber) : number.normalized.rawValue = number.rawValue :=
  fromRaw_rawValue number.rawValue

theorem normalized_sameAs (number : SequenceNumber) : number.normalized.sameAs number = true := by
  unfold sameAs
  rw [normalized_rawValue,beq_self_eq_true]

theorem sequence_back (number : SequenceNumber) (rest : Bytes) :
    unmarshal (number.marshal ++ rest) = .ok (number.normalized,rest) := by
  unfold marshal
  cases normal : number.normalized with
  | invalid => rfl
  | validNonSequence =>
    have reads : unmarshal (writeU8 1 ++ (marshalVlqU64 0 ++ rest)) = .ok (fromRaw 0,rest) :=
      ((u8_back 1).bind _ _).trans ((vlqU64_back 0).bind _ rest)
    rw [List.append_assoc,reads]
    rfl
  | seq sequence =>
    have same : fromRaw sequence = seq sequence := by
      have again : number.normalized.normalized = number.normalized := by
        unfold normalized
        rw [fromRaw_rawValue]
      rw [normal] at again
      exact again
    have reads : unmarshal (writeU8 1 ++ (marshalVlqU64 sequence ++ rest)) = .ok (fromRaw sequence,rest) :=
      ((u8_back 1).bind _ _).trans ((vlqU64_back sequence).bind _ rest)
    rw [List.append_assoc,reads,same]

end Wire
end SequenceNumber
end NwNetwork.Hub
