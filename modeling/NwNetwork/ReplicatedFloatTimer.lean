import NwNetwork.ByteBits
import NwNetwork.ReplicatedField

namespace NwNetwork.Serialize
open WireReader ByteBits Hub

def byteFromU32 (value : BitVec 32) : UInt8 := UInt8.ofNat (value &&& 0x000000ff).toNat

def u8Marshaler : FieldMarshaler UInt8 := ⟨writeU8,readU8⟩

-- The slots see the quantized value only; how seconds are quantized, in single
-- precision, is left open.
structure FloatTimerDeltaReplicatedField where
  data : Fin 4 → ReplicatedFieldHandler UInt8

namespace FloatTimerDeltaReplicatedField
attribute [local instance] four_bytes

def default : FloatTimerDeltaReplicatedField := ⟨fun _ => .empty⟩

def slot (timer : FloatTimerDeltaReplicatedField) (i : Fin 4) : UInt8 := (timer.data i).value.getD 0

def rawQuantizedValue (timer : FloatTimerDeltaReplicatedField) : BitVec 32 :=
  let b0 := BitVec.ofNat 32 (timer.slot 0).toNat
  let b1 := BitVec.ofNat 32 (timer.slot 1).toNat
  let b2 := BitVec.ofNat 32 (timer.slot 2).toNat
  let b3 := BitVec.ofNat 32 (timer.slot 3).toNat
  b3 <<< 24 ||| b2 <<< 16 ||| b1 <<< 8 ||| b0

def bytesRequired (new_value old_value : BitVec 32) : Nat :=
  let diff := new_value ^^^ old_value
  if diff &&& 0xff000000 != 0 then 4
  else if diff &&& 0xffff0000 != 0 then 3
  else if diff &&& 0x0000ff00 != 0 then 2
  else 1

def isFieldValid (timer : FloatTimerDeltaReplicatedField) : Bool :=
  (List.finRange 4).all fun i => (timer.data i).isFieldValid

def bytesNeeded (timer : FloatTimerDeltaReplicatedField) (quantized_new : BitVec 32) : Nat :=
  if timer.isFieldValid then bytesRequired quantized_new timer.rawQuantizedValue else 4

def setSlot (timer : FloatTimerDeltaReplicatedField) (i : Fin 4) (byte : UInt8) : FloatTimerDeltaReplicatedField :=
  ⟨fun j => if j = i then (timer.data i).setValue byte else timer.data j⟩

def setQuantized (timer : FloatTimerDeltaReplicatedField) (quantized_new : BitVec 32) : FloatTimerDeltaReplicatedField :=
  let bytes_needed := timer.bytesNeeded quantized_new
  let timer := if 4 ≤ bytes_needed then timer.setSlot 3 (byteFromU32 (quantized_new >>> 24)) else timer
  let timer := if 3 ≤ bytes_needed then timer.setSlot 2 (byteFromU32 (quantized_new >>> 16)) else timer
  let timer := if 2 ≤ bytes_needed then timer.setSlot 1 (byteFromU32 (quantized_new >>> 8)) else timer
  timer.setSlot 0 (byteFromU32 quantized_new)

def setValue (quantize_value : Seconds → BitVec 32) (timer : FloatTimerDeltaReplicatedField) (new_value : Seconds) :
    FloatTimerDeltaReplicatedField :=
  timer.setQuantized (quantize_value new_value)

-- The slots that a set writes: as many as it needs, from the lowest byte on.
def written (timer : FloatTimerDeltaReplicatedField) (quantized_new : BitVec 32) (i : Fin 4) : Bool :=
  i.val < timer.bytesNeeded quantized_new

def update (timer : FloatTimerDeltaReplicatedField) (sent : Fin 4 → Bool) (i : Fin 4) : Option Bytes :=
  (timer.data i).sendBy u8Marshaler (sent i)

def apply (timer : FloatTimerDeltaReplicatedField) (update : Fin 4 → Option Bytes) :
    Except MarshalerError FloatTimerDeltaReplicatedField := do
  let data0 ← (timer.data 0).applyBy u8Marshaler (update 0)
  let data1 ← (timer.data 1).applyBy u8Marshaler (update 1)
  let data2 ← (timer.data 2).applyBy u8Marshaler (update 2)
  let data3 ← (timer.data 3).applyBy u8Marshaler (update 3)
  pure ⟨fun
    | 0 => data0
    | 1 => data1
    | 2 => data2
    | 3 => data3⟩

section Slots
variable {timer receiver : FloatTimerDeltaReplicatedField} {quantized_new : BitVec 32} {i : Fin 4}

theorem raw_word (timer : FloatTimerDeltaReplicatedField) : timer.rawQuantizedValue = word timer.slot := rfl

theorem bytesRequired_bounds (new_value old_value : BitVec 32) :
    0 < bytesRequired new_value old_value ∧ bytesRequired new_value old_value ≤ 4 := by
  unfold bytesRequired
  dsimp only
  split
  · decide
  · split
    · decide
    · split <;> decide

theorem bytesNeeded_positive : 0 < timer.bytesNeeded quantized_new := by
  unfold bytesNeeded
  split
  · exact (bytesRequired_bounds _ _).1
  · decide

theorem bytesRequired_clear (new_value old_value : BitVec 32) :
    (bytesRequired new_value old_value ≤ 3 → (new_value ^^^ old_value) &&& 0xff000000 = 0) ∧
      (bytesRequired new_value old_value ≤ 2 → (new_value ^^^ old_value) &&& 0xffff0000 = 0) ∧
      (bytesRequired new_value old_value ≤ 1 → (new_value ^^^ old_value) &&& 0x0000ff00 = 0) := by
  unfold bytesRequired
  dsimp only
  generalize (new_value ^^^ old_value) &&& 0xff000000 = top
  generalize (new_value ^^^ old_value) &&& 0xffff0000 = upper
  generalize (new_value ^^^ old_value) &&& 0x0000ff00 = lower
  by_cases top_clear : top = 0#32
  · by_cases upper_clear : upper = 0#32
    · by_cases lower_clear : lower = 0#32 <;> simp [top_clear,upper_clear,lower_clear]
    · simp [top_clear,upper_clear]
  · simp [top_clear]

-- The mask that was found clear covers the byte that is spared.
theorem bytesRequired_spares {new_value old_value : BitVec 32} (spared : bytesRequired new_value old_value ≤ i.val) :
    byteAt new_value i.val = byteAt old_value i.val := by
  have top : ∀ bit : Fin 8, (0xff000000 : BitVec 32).getLsbD (8*3 + bit.val) = true := by decide
  have upper : ∀ bit : Fin 8, (0xffff0000 : BitVec 32).getLsbD (8*2 + bit.val) = true := by decide
  have lower : ∀ bit : Fin 8, (0x0000ff00 : BitVec 32).getLsbD (8*1 + bit.val) = true := by decide
  obtain ⟨clear_top,clear_upper,clear_lower⟩ := bytesRequired_clear new_value old_value
  match i with
  | ⟨0,_⟩ => exact absurd (bytesRequired_bounds new_value old_value).1 (Nat.not_lt.mpr spared)
  | ⟨1,_⟩ => exact byteAt_agree (clear_lower spared) fun bit inside => lower ⟨bit,inside⟩
  | ⟨2,_⟩ => exact byteAt_agree (clear_upper spared) fun bit inside => upper ⟨bit,inside⟩
  | ⟨3,_⟩ => exact byteAt_agree (clear_top spared) fun bit inside => top ⟨bit,inside⟩

theorem unwritten_byte (unwritten : timer.written quantized_new i = false) : byteAt quantized_new i.val = timer.slot i := by
  have spared := Nat.not_lt.mp (of_decide_eq_false unwritten)
  unfold bytesNeeded at spared
  split at spared
  · rw [bytesRequired_spares spared,raw_word,byteAt_word]
  · exact absurd i.isLt (Nat.not_lt.mpr spared)

theorem setSlot_data (timer : FloatTimerDeltaReplicatedField) (i j : Fin 4) (byte : UInt8) :
    (timer.setSlot i byte).data j = if j = i then (timer.data i).setValue byte else timer.data j := rfl

theorem setSlot_if {p : Prop} [Decidable p] (timer : FloatTimerDeltaReplicatedField) (i j : Fin 4) (byte : UInt8) :
    (if p then timer.setSlot i byte else timer).data j = if j = i ∧ p then (timer.data i).setValue byte else timer.data j := by
  by_cases holds : p
  · simp [holds,setSlot_data]
  · simp [holds]

theorem setQuantized_data (timer : FloatTimerDeltaReplicatedField) (quantized_new : BitVec 32) (i : Fin 4) :
    (timer.setQuantized quantized_new).data i =
      if timer.written quantized_new i then (timer.data i).setValue (byteAt quantized_new i.val) else timer.data i := by
  have lowest : byteFromU32 quantized_new = byteAt quantized_new 0 := by
    unfold byteFromU32 byteAt
    rw [Nat.mul_zero,BitVec.ushiftRight_zero]
  have needed : 0 < timer.bytesNeeded quantized_new := bytesNeeded_positive
  unfold setQuantized written
  dsimp only
  generalize timer.bytesNeeded quantized_new = bytes_needed at needed ⊢
  rw [setSlot_data]
  simp only [setSlot_if]
  match i with
  | ⟨0,_⟩ => simp [needed,lowest]
  | ⟨1,_⟩ => simp [Nat.succ_le_iff]; rfl
  | ⟨2,_⟩ => simp [Nat.succ_le_iff]; rfl
  | ⟨3,_⟩ => simp [Nat.succ_le_iff]; rfl

theorem setQuantized_slot (timer : FloatTimerDeltaReplicatedField) (quantized_new : BitVec 32) :
    (timer.setQuantized quantized_new).slot = fun i => byteAt quantized_new i.val := by
  funext i
  unfold slot
  rw [setQuantized_data]
  cases set : timer.written quantized_new i with
  | true =>
    rw [if_pos rfl,ReplicatedFieldHandler.setValue_value]
    rfl
  | false =>
    rw [if_neg Bool.false_ne_true]
    exact (unwritten_byte set).symm

theorem setQuantized_raw (timer : FloatTimerDeltaReplicatedField) (quantized_new : BitVec 32) :
    (timer.setQuantized quantized_new).rawQuantizedValue = quantized_new := by
  rw [raw_word,setQuantized_slot,word_byteAt]

def SameBytes (one two : FloatTimerDeltaReplicatedField) : Prop := ∀ i, (one.data i).value = (two.data i).value

theorem apply_update {sent : Fin 4 → Bool} (filled : ∀ i, sent i = true → (timer.data i).value ≠ none)
    (kept : ∀ i, sent i = false → (receiver.data i).value = (timer.data i).value) :
    ∃ next, receiver.apply (timer.update sent) = .ok next ∧ next.SameBytes timer := by
  have slots : ∀ i, ∃ next, (receiver.data i).applyBy u8Marshaler (timer.update sent i) = .ok next ∧
      next.value = (timer.data i).value := fun i =>
    ReplicatedFieldHandler.apply_sent (fun value _ => u8_back value) (filled i) (kept i)
  obtain ⟨data0,read0,same0⟩ := slots 0
  obtain ⟨data1,read1,same1⟩ := slots 1
  obtain ⟨data2,read2,same2⟩ := slots 2
  obtain ⟨data3,read3,same3⟩ := slots 3
  unfold apply
  rw [read0,read1,read2,read3]
  refine ⟨_,rfl,?_⟩
  intro i
  match i with
  | 0 => exact same0
  | 1 => exact same1
  | 2 => exact same2
  | 3 => exact same3

theorem written_arrives (held : receiver.SameBytes timer) (quantized_new : BitVec 32) :
    ∃ next, receiver.apply ((timer.setQuantized quantized_new).update (timer.written quantized_new)) = .ok next ∧
      next.SameBytes (timer.setQuantized quantized_new) := by
  apply apply_update
  · intro i set
    rw [setQuantized_data,if_pos set,ReplicatedFieldHandler.setValue_value]
    exact Option.some_ne_none _
  · intro i unset
    rw [setQuantized_data,if_neg (by rw [unset]; exact Bool.false_ne_true)]
    exact held i

end Slots

section Runs
variable {Seconds : Type}

def run (quantize_value : Seconds → BitVec 32) (values : List Seconds) : FloatTimerDeltaReplicatedField :=
  values.foldl (setValue quantize_value) default

theorem run_set (quantize_value : Seconds → BitVec 32) (values : List Seconds) (new_value : Seconds) :
    run quantize_value (values ++ [new_value]) = (run quantize_value values).setQuantized (quantize_value new_value) :=
  List.foldl_append

theorem timer_bytes_follow (quantize_value : Seconds → BitVec 32) (values : List Seconds) (new_value : Seconds) :
    (run quantize_value (values ++ [new_value])).rawQuantizedValue = quantize_value new_value ∧
      (∀ i, (run quantize_value (values ++ [new_value])).data i =
        if (run quantize_value values).written (quantize_value new_value) i then
          ((run quantize_value values).data i).setValue (byteAt (quantize_value new_value) i.val)
        else (run quantize_value values).data i) ∧
      ∀ receiver : FloatTimerDeltaReplicatedField, receiver.SameBytes (run quantize_value values) →
        ∃ next, receiver.apply ((run quantize_value (values ++ [new_value])).update
            ((run quantize_value values).written (quantize_value new_value))) = .ok next ∧
          next.SameBytes (run quantize_value (values ++ [new_value])) := by
  rw [run_set]
  exact ⟨setQuantized_raw _ _,setQuantized_data _ _,fun _ held => written_arrives held (quantize_value new_value)⟩

end Runs
end FloatTimerDeltaReplicatedField
end NwNetwork.Serialize
