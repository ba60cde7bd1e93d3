import NwNetwork.ReplicatedField

namespace NwNetwork.Serialize
open WireReader Hub

def bitsPerByte : Nat := 8
def valuesInByte : BitVec 16 := 255

def byteFromU16 (value : BitVec 16) : UInt8 := UInt8.ofNat (value &&& 0x00ff).toNat

def integerOmitLowerByteMarshaler : FieldMarshaler (BitVec 16) where
  marshal value := writeU8 (UInt8.ofNat (value >>> bitsPerByte).toNat)
  unmarshal := do
    let byte ← readU8
    pure (BitVec.ofNat 16 byte.toNat <<< bitsPerByte)

def deltaIntegerMarshaler : FieldMarshaler (BitVec 16) where
  marshal value := writeU8 (byteFromU16 value)
  unmarshal := do
    let byte ← readU8
    pure (BitVec.ofNat 16 byte.toNat)

theorem byteFromU16_toNat (value : BitVec 16) : (byteFromU16 value).toNat = value.toNat % 256 := by
  have masked : (value &&& 0x00ff).toNat = value.toNat % 256 := by
    rw [BitVec.toNat_and]
    exact Nat.and_two_pow_sub_one_eq_mod value.toNat 8
  unfold byteFromU16
  rw [masked]
  simp

-- Each portion codec drops half of the bits, and gives back what has none there.
theorem omitLowerByte_back (whole : value.toNat % 256 = 0) :
    ReadsBack integerOmitLowerByteMarshaler.marshal integerOmitLowerByteMarshaler.unmarshal value := by
  intro rest
  have bound := value.isLt
  have high : (UInt8.ofNat (value >>> bitsPerByte).toNat).toNat = value.toNat / 256 := by
    have shifted : (value >>> bitsPerByte).toNat = value.toNat / 256 := by
      rw [BitVec.toNat_ushiftRight,Nat.shiftRight_eq_div_pow]
      rfl
    rw [shifted,UInt8.toNat_ofNat']
    omega
  have again : BitVec.ofNat 16 (value.toNat / 256) <<< bitsPerByte = value := by
    apply BitVec.eq_of_toNat_eq
    rw [BitVec.toNat_shiftLeft,BitVec.toNat_ofNat,Nat.shiftLeft_eq,bitsPerByte]
    omega
  have read : integerOmitLowerByteMarshaler.unmarshal (integerOmitLowerByteMarshaler.marshal value ++ rest) =
      .ok (BitVec.ofNat 16 (UInt8.ofNat (value >>> bitsPerByte).toNat).toNat <<< bitsPerByte,rest) := rfl
  rw [read,high,again]

theorem deltaInteger_back (small : value.toNat < 256) :
    ReadsBack deltaIntegerMarshaler.marshal deltaIntegerMarshaler.unmarshal value := by
  intro rest
  have read : deltaIntegerMarshaler.unmarshal (deltaIntegerMarshaler.marshal value ++ rest) =
      .ok (BitVec.ofNat 16 (byteFromU16 value).toNat,rest) := rfl
  rw [read,byteFromU16_toNat,Nat.mod_eq_of_lt small,BitVec.ofNat_toNat,BitVec.setWidth_eq]

structure DeltaCompressedCounterHandler where
  absolutePortion : ReplicatedFieldHandler (BitVec 16)
  relativePortion : ReplicatedFieldHandler (BitVec 16)

namespace DeltaCompressedCounterHandler

def default : DeltaCompressedCounterHandler := ⟨.empty,.empty⟩

def isAbsoluteValid (counter : DeltaCompressedCounterHandler) : Bool := counter.absolutePortion.isFieldValid

def isWithinDelta (counter : DeltaCompressedCounterHandler) (new_value : BitVec 16) : Bool :=
  let abs := counter.absolutePortion.value.getD 0
  abs ≤ new_value && new_value - abs ≤ valuesInByte

def setValue (counter : DeltaCompressedCounterHandler) (new_value : BitVec 16) : DeltaCompressedCounterHandler :=
  if !counter.isAbsoluteValid || !counter.isWithinDelta new_value then
    let rel := new_value % (valuesInByte + 1)
    { absolutePortion := counter.absolutePortion.setValue (new_value - rel)
      relativePortion := counter.relativePortion.setValue rel }
  else
    let abs := counter.absolutePortion.value.getD 0
    { counter with relativePortion := counter.relativePortion.setValue (new_value - abs) }

-- The sum of the portions, unless it overflows.
def value (counter : DeltaCompressedCounterHandler) : Option (BitVec 16) :=
  let sum := (counter.absolutePortion.value.getD 0).toNat + (counter.relativePortion.value.getD 0).toNat
  if sum < 65536 then some (BitVec.ofNat 16 sum) else none

end DeltaCompressedCounterHandler

-- Both parties of a counter, with what the sender held at its previous send.
structure CounterLink where
  sender : DeltaCompressedCounterHandler
  sent : DeltaCompressedCounterHandler
  receiver : DeltaCompressedCounterHandler

structure CounterUpdate where
  absolute : Option Bytes
  relative : Option Bytes

-- A portion that holds what it held at the previous send need not be sent. Whether
-- it is, as one that has been set again to the same value, is left to each send.
structure Resend where
  absolute : Bool
  relative : Bool

inductive CounterAction where
  | setValue (new_value : BitVec 16)
  | send (again : Resend)

def portionChanged (again : Bool) (now before : ReplicatedFieldHandler (BitVec 16)) : Bool :=
  now.value.isSome && (again || now.value != before.value)

namespace DeltaCompressedCounterHandler

def update (counter before : DeltaCompressedCounterHandler) (again : Resend) : CounterUpdate where
  absolute := counter.absolutePortion.sendBy integerOmitLowerByteMarshaler
    (portionChanged again.absolute counter.absolutePortion before.absolutePortion)
  relative := counter.relativePortion.sendBy deltaIntegerMarshaler
    (portionChanged again.relative counter.relativePortion before.relativePortion)

def apply (counter : DeltaCompressedCounterHandler) (update : CounterUpdate) :
    Except MarshalerError DeltaCompressedCounterHandler := do
  let absolutePortion ← counter.absolutePortion.applyBy integerOmitLowerByteMarshaler update.absolute
  let relativePortion ← counter.relativePortion.applyBy deltaIntegerMarshaler update.relative
  pure ⟨absolutePortion,relativePortion⟩

end DeltaCompressedCounterHandler

namespace CounterLink

def start : CounterLink := ⟨.default,.default,.default⟩

-- A receiver that cannot read an update stays as it is.
def step (link : CounterLink) : CounterAction → CounterLink
  | .setValue new_value => { link with sender := link.sender.setValue new_value }
  | .send again =>
    match link.receiver.apply (link.sender.update link.sent again) with
    | .ok receiver => ⟨link.sender,link.sender,receiver⟩
    | .error _ => { link with sent := link.sender }

def run (actions : List CounterAction) : CounterLink := actions.foldl step start

end CounterLink

def CounterAction.setAfter (last : BitVec 16) : CounterAction → BitVec 16
  | .setValue new_value => new_value
  | .send _ => last

-- The value set last, zero before any.
def lastSet (actions : List CounterAction) : BitVec 16 := actions.foldl CounterAction.setAfter 0

namespace DeltaCompressedCounterHandler
variable {counter : DeltaCompressedCounterHandler} {value : BitVec 16}

def absolute (counter : DeltaCompressedCounterHandler) : Nat := (counter.absolutePortion.value.getD 0).toNat
def relative (counter : DeltaCompressedCounterHandler) : Nat := (counter.relativePortion.value.getD 0).toNat

-- The portions of a value: what either codec drops of its portion is zero.
structure Holds (counter : DeltaCompressedCounterHandler) (value : BitVec 16) : Prop where
  whole : counter.absolute % 256 = 0
  small : counter.relative < 256
  sum : counter.absolute + counter.relative = value.toNat

theorem default_holds : default.Holds 0 := ⟨rfl,by decide,rfl⟩

theorem holds_value (holds : counter.Holds value) : counter.value = some value := by
  have sum : (counter.absolutePortion.value.getD 0).toNat + (counter.relativePortion.value.getD 0).toNat = value.toNat :=
    holds.sum
  unfold DeltaCompressedCounterHandler.value
  dsimp only
  rw [sum,if_pos value.isLt,BitVec.ofNat_toNat,BitVec.setWidth_eq]

theorem setValue_holds (before : counter.Holds value) (new_value : BitVec 16) : (counter.setValue new_value).Holds new_value := by
  have bound := new_value.isLt
  unfold setValue
  split
  · -- A new absolute portion is the value without its lower byte.
    have rel : (new_value % (valuesInByte + 1)).toNat = new_value.toNat % 256 := by
      rw [BitVec.toNat_umod]
      rfl
    have abs : (new_value - new_value % (valuesInByte + 1)).toNat = new_value.toNat - new_value.toNat % 256 := by
      rw [BitVec.toNat_sub_of_le (by rw [BitVec.le_def,rel]; exact Nat.mod_le _ _),rel]
    constructor <;> simp only [absolute,relative,ReplicatedFieldHandler.setValue_value,Option.getD_some,rel,abs] <;> omega
  · rename_i inside
    rw [Bool.not_eq_true,Bool.or_eq_false_iff,Bool.not_eq_false',Bool.not_eq_false'] at inside
    obtain ⟨above,near⟩ := Bool.and_eq_true_iff.mp inside.2
    have above := of_decide_eq_true above
    have near := of_decide_eq_true near
    have difference := BitVec.toNat_sub_of_le above
    rw [BitVec.le_def] at above near
    rw [difference] at near
    have whole := before.whole
    have limit : valuesInByte.toNat = 255 := rfl
    rw [limit] at near
    constructor <;> simp only [absolute,relative,ReplicatedFieldHandler.setValue_value,Option.getD_some,difference] at * <;> omega

theorem absolute_back (holds : counter.Holds value) (present : counter.absolutePortion.value = some portion) :
    ReadsBack integerOmitLowerByteMarshaler.marshal integerOmitLowerByteMarshaler.unmarshal portion := by
  have whole := holds.whole
  unfold absolute at whole
  rw [present] at whole
  exact omitLowerByte_back whole

theorem relative_back (holds : counter.Holds value) (present : counter.relativePortion.value = some portion) :
    ReadsBack deltaIntegerMarshaler.marshal deltaIntegerMarshaler.unmarshal portion := by
  have small := holds.small
  unfold relative at small
  rw [present] at small
  exact deltaInteger_back small

-- Two counters with the same portions, whatever else their fields note.
def SamePortions (one two : DeltaCompressedCounterHandler) : Prop :=
  one.absolutePortion.value = two.absolutePortion.value ∧ one.relativePortion.value = two.relativePortion.value

theorem same_value (same : SamePortions one two) : one.value = two.value := by
  unfold DeltaCompressedCounterHandler.value
  rw [same.1,same.2]

theorem portion_filled (changed : portionChanged again now before = true) : now.value ≠ none := by
  intro none
  unfold portionChanged at changed
  rw [none] at changed
  cases changed

theorem portion_kept (unchanged : portionChanged again now before = false) (nothing : now.value = none → before.value = none) :
    before.value = now.value := by
  unfold portionChanged at unchanged
  cases held : now.value with
  | none => exact nothing held
  | some value =>
    rw [held] at unchanged
    simp only [Option.isSome_some,Bool.true_and,Bool.or_eq_false_iff,bne_eq_false_iff_eq] at unchanged
    exact unchanged.2.symm

theorem setValue_fills (counter : DeltaCompressedCounterHandler) (new_value : BitVec 16) :
    ((counter.setValue new_value).absolutePortion.value = none → counter.absolutePortion.value = none) ∧
      (counter.setValue new_value).relativePortion.value ≠ none := by
  unfold setValue
  split
  · simp [ReplicatedFieldHandler.setValue_value]
  · simp [ReplicatedFieldHandler.setValue_value]

end DeltaCompressedCounterHandler

namespace CounterLink
open DeltaCompressedCounterHandler
variable {link : CounterLink} {value : BitVec 16}

structure Linked (link : CounterLink) (value : BitVec 16) : Prop where
  holds : link.sender.Holds value
  same : SamePortions link.receiver link.sent
  absolute : link.sender.absolutePortion.value = none → link.sent.absolutePortion.value = none
  relative : link.sender.relativePortion.value = none → link.sent.relativePortion.value = none

theorem start_linked : start.Linked 0 := ⟨default_holds,⟨rfl,rfl⟩,id,id⟩

theorem send_linked (linked : link.Linked value) (again : Resend) :
    (link.step (.send again)).Linked value ∧ SamePortions (link.step (.send again)).receiver link.sender := by
  obtain ⟨absolutePortion,absolute_read,absolute_same⟩ := ReplicatedFieldHandler.apply_sent
    (fun _ present => absolute_back linked.holds present)
    (fun changed => portion_filled changed)
    (fun unchanged => linked.same.1.trans (portion_kept unchanged linked.absolute))
  obtain ⟨relativePortion,relative_read,relative_same⟩ := ReplicatedFieldHandler.apply_sent
    (fun _ present => relative_back linked.holds present)
    (fun changed => portion_filled changed)
    (fun unchanged => linked.same.2.trans (portion_kept unchanged linked.relative))
  have applied : link.receiver.apply (link.sender.update link.sent again) = .ok ⟨absolutePortion,relativePortion⟩ := by
    unfold apply update
    rw [absolute_read,relative_read]
    rfl
  have stepped : link.step (.send again) = ⟨link.sender,link.sender,⟨absolutePortion,relativePortion⟩⟩ := by
    simp only [step,applied]
  rw [stepped]
  exact ⟨⟨linked.holds,⟨absolute_same,relative_same⟩,id,id⟩,⟨absolute_same,relative_same⟩⟩

theorem step_linked (linked : link.Linked value) (action : CounterAction) :
    (link.step action).Linked (action.setAfter value) := by
  cases action with
  | setValue new_value =>
    obtain ⟨absolute,relative⟩ := setValue_fills link.sender new_value
    exact ⟨setValue_holds linked.holds new_value,linked.same,fun none => linked.absolute (absolute none),
      fun none => absurd none relative⟩
  | send again => exact (send_linked linked again).1

theorem run_linked (actions : List CounterAction) : (run actions).Linked (lastSet actions) := by
  have from_any : ∀ {link value}, Linked link value →
      Linked (actions.foldl step link) (actions.foldl CounterAction.setAfter value) := by
    induction actions with
    | nil => exact id
    | cons action actions ih => exact fun linked => ih (step_linked linked action)
  exact from_any start_linked

-- Sets that have not been sent do not reach the receiver.
theorem unsent_receiver (link : CounterLink) (later : List (BitVec 16)) :
    ((later.map .setValue).foldl step link).receiver = link.receiver := by
  induction later generalizing link with
  | nil => rfl
  | cons new_value later ih => exact ih (link.step (.setValue new_value))

theorem delta_counter_reconstructs :
    (∀ actions, (run actions).sender.value = some (lastSet actions)) ∧
      ∀ (actions : List CounterAction) (again : Resend) (later : List (BitVec 16)),
        (run (actions ++ .send again :: later.map .setValue)).receiver.value = some (lastSet actions) := by
  constructor
  · intro actions
    exact holds_value (run_linked actions).holds
  · intro actions again later
    have linked := run_linked actions
    have arrived := (send_linked linked again).2
    have received : (run (actions ++ .send again :: later.map .setValue)).receiver =
        ((run actions).step (.send again)).receiver := by
      unfold run
      rw [List.foldl_append]
      exact unsent_receiver _ later
    rw [received,same_value arrived,holds_value linked.holds]

end CounterLink

end NwNetwork.Serialize
