import NwNetwork.WireReader
import Mathlib.Data.List.GetD

namespace MaskedSlots
open WireReader

-- A shift by the width or more goes round.
def hasBit (mask : BitVec 64) (bit : Nat) : Bool := mask &&& (1#64 <<< (bit % 64)) != 0

-- A mask with one bit for each flag, from a first bit on.
def maskFrom (mask : BitVec 64) (bit : Nat) : List Bool → BitVec 64
  | [] => mask
  | flag :: flags => maskFrom (if flag then mask ||| 1#64 <<< (bit % 64) else mask) (bit + 1) flags

theorem hasBit_getLsbD {bit : Nat} (small : bit < 64) (mask : BitVec 64) : hasBit mask bit = mask.getLsbD bit := by
  have place : ∀ j, (mask &&& (1#64 <<< bit)).getLsbD j = (decide (j = bit) && mask.getLsbD bit) := by
    intro j
    rw [BitVec.getLsbD_and,BitVec.getLsbD_shiftLeft,BitVec.getLsbD_one]
    by_cases same : j = bit
    · subst same
      simp [small]
    · by_cases below : j < bit
      · simp [same,below]
      · have apart : ¬j - bit = 0 := by omega
        simp [same,apart]
  unfold hasBit
  rw [Nat.mod_eq_of_lt small]
  cases set : mask.getLsbD bit with
  | true =>
    rw [bne_iff_ne]
    intro zero
    have one := place bit
    rw [zero,set] at one
    simp at one
  | false =>
    rw [bne_eq_false_iff_eq]
    apply BitVec.eq_of_getLsbD_eq
    intro j _
    rw [place j,set,Bool.and_false]
    simp

theorem maskFrom_getLsbD {mask : BitVec 64} {start bit : Nat} {flags : List Bool} (fits : start + flags.length ≤ 64) :
    (maskFrom mask start flags).getLsbD bit =
      (mask.getLsbD bit || (decide (start ≤ bit) && flags.getD (bit - start) false)) := by
  induction flags generalizing mask start with
  | nil => simp [maskFrom]
  | cons flag flags ih =>
    rw [List.length_cons] at fits
    have place : start % 64 = start := Nat.mod_eq_of_lt (by omega)
    have head : (if flag then mask ||| 1#64 <<< (start % 64) else mask).getLsbD bit =
        (mask.getLsbD bit || (flag && decide (start = bit))) := by
      cases flag with
      | false => simp
      | true =>
        rw [if_pos rfl,place,BitVec.getLsbD_or,BitVec.getLsbD_shiftLeft,BitVec.getLsbD_one]
        rcases Nat.lt_trichotomy bit start with before | rfl | later
        · simp [before,Nat.ne_of_gt before]
        · simp
          omega
        · have apart : ¬bit - start = 0 := by omega
          simp [apart,Nat.ne_of_lt later]
    unfold maskFrom
    rw [ih (by omega),head]
    rcases Nat.lt_trichotomy bit start with before | rfl | later
    · have early : ¬start ≤ bit := by omega
      have earlier : ¬start + 1 ≤ bit := by omega
      simp [early,earlier,Nat.ne_of_gt before]
    · have past : ¬bit + 1 ≤ bit := by omega
      simp [past]
    · have within : start ≤ bit := by omega
      have inside : start + 1 ≤ bit := by omega
      have next : bit - start = (bit - (start + 1)) + 1 := by omega
      simp [within,inside,next,Nat.ne_of_lt later]

theorem maskFrom_reads {flags : List Bool} {bit : Nat} (small : bit < 64) (fits : flags.length ≤ 64) :
    hasBit (maskFrom 0 0 flags) bit = flags.getD bit false := by
  rw [hasBit_getLsbD small,maskFrom_getLsbD (by omega)]
  simp

-- Loops over the slots of a list, for those whose bit is set, from a first bit on.
section Slots
variable {ε σ ι : Type}

def readSlots (read : ι → σ → Reader ε σ) (bits : Nat → Bool) : Nat → List ι → σ → Reader ε σ
  | _,[],state => pure state
  | bit,slot :: slots,state => do
    let state ← if bits bit then read slot state else pure state
    readSlots read bits (bit + 1) slots state

def writeSlots (write : ι → Bytes) (bits : Nat → Bool) : Nat → List ι → Bytes
  | _,[] => []
  | bit,slot :: slots => (if bits bit then write slot else []) ++ writeSlots write bits (bit + 1) slots

def applySlots (apply : ι → σ → σ) (bits : Nat → Bool) : Nat → List ι → σ → σ
  | _,[],state => state
  | bit,slot :: slots,state => applySlots apply bits (bit + 1) slots (if bits bit then apply slot state else state)

variable {read : ι → σ → Reader ε σ} {write : ι → Bytes} {apply : ι → σ → σ} {bits : Nat → Bool} {slots : List ι}

-- If each slot that is set is read back, then all of them are, in their order.
theorem slots_back {bit : Nat} (state : σ)
    (back : ∀ j slot, slots[j]? = some slot → bits (bit + j) = true →
      ∀ state rest, read slot state (write slot ++ rest) = .ok (apply slot state,rest)) (rest : Bytes) :
    readSlots read bits bit slots state (writeSlots write bits bit slots ++ rest) =
      .ok (applySlots apply bits bit slots state,rest) := by
  induction slots generalizing bit state with
  | nil => rfl
  | cons slot slots ih =>
    have others : ∀ j slot, slots[j]? = some slot → bits (bit + 1 + j) = true →
        ∀ state rest, read slot state (write slot ++ rest) = .ok (apply slot state,rest) := by
      intro j other found set
      rw [Nat.add_assoc,Nat.add_comm 1 j] at set
      exact back (j + 1) other found set
    unfold readSlots writeSlots applySlots
    cases set : bits bit with
    | false => exact ih state others
    | true =>
      rw [if_pos rfl,if_pos rfl,if_pos rfl,List.append_assoc]
      exact (Reader.bind_ok (back 0 slot rfl set state _)).trans (ih (apply slot state) others)

-- What the readers of the slots can do, one after the other.
theorem readSlots_related (related : σ → σ → Prop) (same : ∀ state, related state state)
    (chain : ∀ {before middle after}, related before middle → related middle after → related before after)
    (each : ∀ {slot state bytes after rest}, read slot state bytes = .ok (after,rest) → related state after)
    {bit : Nat} {state after : σ} (ran : readSlots read bits bit slots state bytes = .ok (after,rest)) :
    related state after := by
  induction slots generalizing bit state bytes with
  | nil =>
    cases ran
    exact same _
  | cons slot slots ih =>
    unfold readSlots at ran
    dsimp only at ran
    split at ran
    · obtain ⟨middle,left,first,others⟩ := Reader.bind_eq_ok.mp ran
      exact chain (each first) (ih others)
    · exact ih ran

-- What only one of the slots changes is as that slot leaves it.
theorem applySlots_view {γ : Type} [DecidableEq ι] (view : σ → γ) (slot : ι) (bits : Nat → Bool) (bit : Nat) (state : σ)
    (others : ∀ s, s ≠ slot → ∀ state, view (apply s state) = view state)
    (own : ∀ before after, view before = view after → view (apply slot before) = view (apply slot after))
    (distinct : slots.Nodup) :
    view (applySlots apply bits bit slots state) =
      if slot ∈ slots ∧ bits (bit + slots.idxOf slot) = true then view (apply slot state) else view state := by
  induction slots generalizing bit state with
  | nil => simp [applySlots]
  | cons s slots ih =>
    rw [List.nodup_cons] at distinct
    unfold applySlots
    rw [ih _ _ distinct.2]
    by_cases here : s = slot
    · subst here
      have last : ¬(s ∈ slots ∧ bits (bit + 1 + slots.idxOf s) = true) := fun wrong => distinct.1 wrong.1
      rw [if_neg last,List.idxOf_cons_self,Nat.add_zero]
      cases bits bit <;> simp
    · have same : view (if bits bit then apply s state else state) = view state := by
        split
        · exact others s here state
        · rfl
      have place : bit + (s :: slots).idxOf slot = bit + 1 + slots.idxOf slot := by
        rw [List.idxOf_cons_ne _ here]
        omega
      have member : slot ∈ s :: slots ↔ slot ∈ slots := by
        rw [List.mem_cons,or_iff_right (Ne.symm here)]
      simp only [place,member,same]
      split
      · exact own _ _ same
      · rfl

theorem applySlots_marks {bit : Nat} {view : σ → Bool} (marks : ∀ s state, view (apply s state) = true) (state : σ)
    (marked : view state = true ∨ ∃ j < slots.length, bits (bit + j) = true) :
    view (applySlots apply bits bit slots state) = true := by
  induction slots generalizing bit state with
  | nil =>
    rcases marked with already | ⟨j,none,_⟩
    · exact already
    · exact absurd none (Nat.not_lt_zero j)
  | cons s slots ih =>
    unfold applySlots
    apply ih
    cases set : bits bit with
    | true => exact .inl (marks s state)
    | false =>
      rcases marked with already | ⟨j,inside,later⟩
      · exact .inl already
      · cases j with
        | zero =>
          rw [Nat.add_zero,set] at later
          cases later
        | succ j => exact .inr ⟨j,Nat.lt_of_succ_lt_succ inside,by rwa [Nat.add_right_comm,Nat.add_assoc]⟩

end Slots

section Updates
variable {ι : Type} [DecidableEq ι] {β : ι → Type} {change : ∀ i, β i → β i} {bits : Nat → Bool} {slots : List ι}

def changeSlot (change : ∀ i, β i → β i) (i : ι) (state : ∀ i, β i) : ∀ i, β i := Function.update state i (change i (state i))

theorem changeSlot_same (state : ∀ i, β i) (i : ι) : changeSlot change i state i = change i (state i) := by
  unfold changeSlot
  exact Function.update_self _ _ _

theorem changeSlot_other {i j : ι} (state : ∀ i, β i) (other : j ≠ i) : changeSlot change j state i = state i := by
  unfold changeSlot
  exact Function.update_of_ne (Ne.symm other) _ _

theorem applySlots_change (change : ∀ i, β i → β i) (bits : Nat → Bool) (bit : Nat) (state : ∀ i, β i) (i : ι)
    (distinct : slots.Nodup) :
    applySlots (changeSlot change) bits bit slots state i =
      if i ∈ slots ∧ bits (bit + slots.idxOf i) = true then change i (state i) else state i := by
  have own : ∀ before after : ∀ i, β i, before i = after i → changeSlot change i before i = changeSlot change i after i := by
    intro before after same
    rw [changeSlot_same,changeSlot_same,same]
  have viewed := applySlots_view (fun state => state i) i bits bit state
    (fun j other state => changeSlot_other state other) own distinct
  rw [changeSlot_same] at viewed
  exact viewed

end Updates
end MaskedSlots
