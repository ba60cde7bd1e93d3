import NwNetwork.CarrierDatagramHistory
import Mathlib.Data.Finset.Card
import Mathlib.Data.Fintype.Card

namespace NwNetwork.Carrier
open WireReader Serialize

-- The number `k` places behind another one.
def behind (newest : SequenceNumber) (k : Nat) : SequenceNumber := newest - BitVec.ofNat 16 k

namespace DatagramHistoryList

theorem behind_toNat (newest : SequenceNumber) (small : k ≤ 65536) :
    (behind newest k).toNat = (newest.toNat + (65536 - k)) % 65536 := by
  have := newest.isLt
  simp only [behind,BitVec.toNat_sub,BitVec.toNat_ofNat]
  omega

theorem slot_val (id : SequenceNumber) : (slot id).val = id.toNat % 512 := rfl

theorem slot_behind_inj (newest : SequenceNumber) (first : j ≤ 511) (second : k ≤ 511)
    (same : slot (behind newest j) = slot (behind newest k)) : j = k := by
  have values := congrArg Fin.val same
  simp only [slot_val,behind_toNat newest (show j ≤ 65536 by omega),
    behind_toNat newest (show k ≤ 65536 by omega)] at values
  have := newest.isLt
  omega

theorem add_val (offset : Offset) : (add offset).val = (offset.val + 1) % 512 := by
  unfold add
  split
  · rename_i top
    subst top
    rfl
  · exact Fin.val_add offset 1

theorem sub_val (offset : Offset) : (sub offset).val = (offset.val + 511) % 512 := by
  unfold sub
  split
  · rename_i bottom
    subst bottom
    rfl
  · rw [Fin.val_sub]
    have := offset.isLt
    show (512 - 1 + offset.val) % 512 = _
    omega

theorem add_slot (id : SequenceNumber) : add (slot id) = slot (id + 1) := by
  apply Fin.ext
  simp only [add_val,slot_val,BitVec.toNat_add]
  simp

theorem sub_add (offset : Offset) : sub (add offset) = offset := by
  apply Fin.ext
  simp only [add_val,sub_val]
  have := offset.isLt
  omega

theorem sub_slot (id : SequenceNumber) : sub (slot (id + 1)) = slot id := by
  rw [←add_slot,sub_add]

theorem behind_zero (newest : SequenceNumber) : behind newest 0 = newest := by simp [behind]

theorem behind_behind (newest : SequenceNumber) (j k : Nat) : behind (behind newest j) k = behind newest (j + k) := by
  apply BitVec.eq_of_toNat_eq
  simp only [behind,BitVec.toNat_sub,BitVec.toNat_ofNat]
  have := newest.isLt
  omega

theorem behind_distance (id newest : SequenceNumber) :
    behind id (sequenceNumberSequentialDistance newest id) = newest := by
  apply BitVec.eq_of_toNat_eq
  simp only [behind,sequenceNumberSequentialDistance,BitVec.toNat_sub,BitVec.toNat_ofNat]
  have := id.isLt
  have := newest.isLt
  omega

theorem behind_succ (newest : SequenceNumber) (k : Nat) : behind newest (k + 1) + 1 = behind newest k := by
  apply BitVec.eq_of_toNat_eq
  simp only [behind,BitVec.toNat_sub,BitVec.toNat_ofNat,BitVec.toNat_add]
  have := newest.isLt
  simp
  omega

theorem add_behind (newest : SequenceNumber) (positive : 0 < i) :
    add (slot (behind newest i)) = slot (behind newest (i - 1)) := by
  rw [add_slot,←behind_succ newest (i - 1),Nat.sub_add_cancel positive]

-- The slots in use.
def active (history : DatagramHistoryList) : Finset Offset :=
  Finset.univ.filter fun offset => history.isValid offset = true

section Slots
variable {history : DatagramHistoryList} {offset other : Offset} {element : HistoryElement}

@[simp] theorem mem_active : offset ∈ history.active ↔ history.isValid offset = true := by simp [active]

@[simp] theorem store_first : (history.store offset element).first = history.first := rfl
@[simp] theorem store_last : (history.store offset element).last = history.last := rfl
@[simp] theorem store_count : (history.store offset element).numActiveElements = history.numActiveElements := rfl

@[simp] theorem store_same : (history.store offset element).elements offset = element := by simp [store]

@[simp] theorem store_other (ne : other ≠ offset) :
    (history.store offset element).elements other = history.elements other := by simp [store,ne]

theorem isValid_iff : history.isValid offset = true ↔ (history.elements offset).numAcksSent ≠ -1 := by
  simp [isValid]

-- What eviction and removal do to a slot.
def cleared (history : DatagramHistoryList) (offset : Offset) : DatagramHistoryList :=
  if history.isValid offset then
    { history.setAcks offset (-1) with numActiveElements := history.numActiveElements - 1 }
  else history

@[simp] theorem cleared_first : (history.cleared offset).first = history.first := by
  unfold cleared
  split <;> rfl

@[simp] theorem cleared_last : (history.cleared offset).last = history.last := by
  unfold cleared
  split <;> rfl

@[simp] theorem cleared_other (ne : other ≠ offset) :
    (history.cleared offset).elements other = history.elements other := by
  unfold cleared
  split
  · exact store_other ne
  · rfl

@[simp] theorem cleared_number (other : Offset) :
    (history.cleared offset).numberAt other = history.numberAt other := by
  by_cases same : other = offset
  · subst same
    unfold cleared
    split
    · simp [numberAt,setAcks]
    · rfl
  · simp [numberAt,same]

theorem cleared_valid : (history.cleared offset).isValid other = true ↔
    history.isValid other = true ∧ other ≠ offset := by
  by_cases same : other = offset
  · subst same
    unfold cleared
    split
    · simp [isValid,setAcks]
    · rename_i empty
      simp [empty]
  · simp [isValid,same]

theorem cleared_active : (history.cleared offset).active = history.active.erase offset := by
  ext other
  simp only [mem_active,cleared_valid,Finset.mem_erase]
  exact And.comm

theorem cleared_count (counted : history.numActiveElements = history.active.card) :
    (history.cleared offset).numActiveElements = (history.cleared offset).active.card := by
  rw [cleared_active]
  by_cases valid : history.isValid offset = true
  · rw [Finset.card_erase_of_mem (mem_active.mpr valid),←counted]
    simp [cleared,valid]
  · rw [Finset.erase_eq_of_notMem (fun present => valid (mem_active.mp present)),←counted]
    simp [cleared,valid]

end Slots

-- The used slots lie in a window of `n` numbers behind the newest one, each in
-- the slot of its own number, and the ring knows how many they are.
structure Window (history : DatagramHistoryList) (newest : SequenceNumber) (n : Nat) : Prop where
  size : n ≤ 511
  last : history.last = slot (newest + 1)
  first : history.first = slot (behind newest n)
  within : ∀ offset, history.isValid offset = true →
    ∃ k, k ≤ n ∧ offset = slot (behind newest k) ∧ history.numberAt offset = behind newest k
  count : history.numActiveElements = history.active.card
  sent : ∀ offset, -1 ≤ (history.elements offset).numAcksSent

-- A window with an element at both ends.
structure Framed (history : DatagramHistoryList) (newest : SequenceNumber) (n : Nat) : Prop
    extends Window history newest n where
  oldest : history.isValid history.first = true
  newestIn : history.isValid history.lastIndex = true

-- What the history looks like between two calls.
inductive Kept (history : DatagramHistoryList) : Prop where
  | empty : history.numActiveElements = 0 → history.active.card = 0 →
      (∀ offset, -1 ≤ (history.elements offset).numAcksSent) → Kept history
  | framed : Framed history newest n → Kept history

theorem new_kept : Kept DatagramHistoryList.new := by
  refine .empty rfl ?_ fun _ => Int.le_refl _
  rw [Finset.card_eq_zero]
  ext offset
  simp [isValid,DatagramHistoryList.new]

-- Numbers stay in their slots, and no slot comes into use.
structure Shrinks (before after : DatagramHistoryList) : Prop where
  numbers : ∀ offset, after.numberAt offset = before.numberAt offset
  valid : ∀ offset, after.isValid offset = true → before.isValid offset = true

section Window
variable {history middle after : DatagramHistoryList} {newest newFirst : SequenceNumber} {offset : Offset}

theorem shrinks_refl (history : DatagramHistoryList) : Shrinks history history :=
  ⟨fun _ => rfl,fun _ => id⟩

theorem shrinks_trans (one : Shrinks history middle) (two : Shrinks middle after) : Shrinks history after :=
  ⟨fun offset => (two.numbers offset).trans (one.numbers offset),fun offset => one.valid offset ∘ two.valid offset⟩

theorem cleared_shrinks : Shrinks history (history.cleared offset) :=
  ⟨cleared_number,fun _ valid => (cleared_valid.mp valid).1⟩

theorem window_lastIndex (window : Window history newest n) : history.lastIndex = slot newest := by
  unfold lastIndex
  rw [window.last,sub_slot]

theorem lastIndex_behind (window : Window history newest n) : history.lastIndex = slot (behind newest 0) := by
  rw [behind_zero]
  exact window_lastIndex window

theorem newest_positive (window : Window history newest n) (ne : slot (behind newest i) ≠ history.lastIndex) : 0 < i := by
  cases i with
  | zero => exact absurd (lastIndex_behind window).symm ne
  | succ i => exact Nat.succ_pos i

theorem window_cleared (window : Window history newest n) : Window (history.cleared offset) newest n := by
  refine ⟨window.size,?_,?_,?_,cleared_count window.count,?_⟩
  · exact cleared_last.trans window.last
  · exact cleared_first.trans window.first
  · intro other valid
    rw [cleared_number]
    exact window.within other (cleared_valid.mp valid).1
  · intro other
    by_cases same : other = offset
    · subst same
      unfold cleared
      split
      · simp [setAcks]
      · exact window.sent other
    · rw [cleared_other same]
      exact window.sent other

-- An empty first slot, or an empty last one, can be given up.
theorem window_advance (window : Window history newest n) (empty : ¬history.isValid history.first = true)
    (holds : history.active.Nonempty) :
    0 < n ∧ Window { history with first := add history.first } newest (n - 1) := by
  have inside : ∀ other, history.isValid other = true → ∃ k, k < n ∧ other = slot (behind newest k) ∧
      history.numberAt other = behind newest k := by
    intro other valid
    obtain ⟨k,bound,place,number⟩ := window.within other valid
    have differs : k ≠ n := by
      intro same
      subst same
      rw [place,←window.first] at valid
      exact empty valid
    exact ⟨k,Nat.lt_of_le_of_ne bound differs,place,number⟩
  obtain ⟨member,present⟩ := holds
  obtain ⟨k,bound,_⟩ := inside member (mem_active.mp present)
  have size := window.size
  refine ⟨by omega,by omega,window.last,?_,?_,window.count,window.sent⟩
  · show add history.first = slot (behind newest (n - 1))
    rw [window.first,add_behind newest (by omega)]
  · intro other valid
    obtain ⟨k,bound,rest⟩ := inside other valid
    exact ⟨k,by omega,rest⟩

theorem window_retreat (window : Window history newest n) (empty : ¬history.isValid history.lastIndex = true)
    (holds : history.active.Nonempty) :
    0 < n ∧ Window { history with last := sub history.last } (behind newest 1) (n - 1) := by
  have inside : ∀ other, history.isValid other = true → ∃ k, k + 1 ≤ n ∧ other = slot (behind newest (k + 1)) ∧
      history.numberAt other = behind newest (k + 1) := by
    intro other valid
    obtain ⟨k,bound,place,number⟩ := window.within other valid
    cases k with
    | zero =>
      rw [place,behind_zero,←window_lastIndex window] at valid
      exact absurd valid empty
    | succ k => exact ⟨k,bound,place,number⟩
  obtain ⟨member,present⟩ := holds
  obtain ⟨k,bound,_⟩ := inside member (mem_active.mp present)
  have size := window.size
  have whole : 1 + (n - 1) = n := by omega
  refine ⟨by omega,by omega,?_,?_,?_,window.count,window.sent⟩
  · show sub history.last = slot (behind newest (0 + 1) + 1)
    rw [window.last,sub_slot,behind_succ,behind_zero]
  · show history.first = _
    rw [behind_behind,whole]
    exact window.first
  · intro other valid
    obtain ⟨k,bound,rest⟩ := inside other valid
    refine ⟨k,by omega,?_⟩
    rw [behind_behind,Nat.add_comm 1 k]
    exact rest

theorem advanceFirst_window (ran : advanceFirst fuel history = some after) (window : Window history newest n)
    (holds : history.active.Nonempty) :
    ∃ m, m ≤ n ∧ Window after newest m ∧ after.isValid after.first = true ∧
      after = { history with first := after.first } := by
  induction fuel generalizing history n with
  | zero => cases ran
  | succ fuel ih =>
    unfold advanceFirst at ran
    split at ran
    · rename_i valid
      cases Option.some.inj ran
      exact ⟨n,Nat.le_refl n,window,valid,rfl⟩
    · rename_i empty
      obtain ⟨positive,next⟩ := window_advance window empty holds
      obtain ⟨m,bound,done,valid,same⟩ := ih ran next holds
      exact ⟨m,by omega,done,valid,same⟩

theorem retreatLast_window (ran : retreatLast fuel history = some after) (window : Window history newest n)
    (holds : history.active.Nonempty) :
    ∃ j, j ≤ n ∧ Window after (behind newest j) (n - j) ∧ after.isValid after.lastIndex = true ∧
      after = { history with last := after.last } := by
  induction fuel generalizing history newest n with
  | zero => cases ran
  | succ fuel ih =>
    unfold retreatLast at ran
    split at ran
    · rename_i valid
      cases Option.some.inj ran
      refine ⟨0,Nat.zero_le n,?_,valid,rfl⟩
      rw [behind_zero]
      exact window
    · rename_i empty
      obtain ⟨positive,next⟩ := window_retreat window empty holds
      obtain ⟨j,bound,done,valid,same⟩ := ih ran next holds
      refine ⟨1 + j,by omega,?_,valid,same⟩
      rw [←behind_behind,show n - (1 + j) = n - 1 - j by omega]
      exact done

theorem active_nonempty (count : history.numActiveElements = history.active.card) :
    history.numActiveElements ≠ 0 ↔ history.active.Nonempty := by
  rw [count,Finset.card_ne_zero]

-- What eviction leaves: nothing, or a shorter window whose first number is not
-- older than the bound.
theorem evict_window (ran : evict newFirst fuel history = some after) (window : Window history newest n) :
    Shrinks history after ∧ after.last = history.last ∧ after.numActiveElements = after.active.card ∧
      (∀ other, -1 ≤ (after.elements other).numAcksSent) ∧
      (∀ other, after.isValid other = true → after.elements other = history.elements other) ∧
      (∀ other, history.isValid other = true → ¬after.isValid other = true →
        seqLessThan (history.numberAt other) newFirst = true) ∧
      (after.numActiveElements = 0 ∨
        ∃ m, m ≤ n ∧ Window after newest m ∧ ¬seqLessThan (after.numberAt after.first) newFirst = true) := by
  induction fuel generalizing history n with
  | zero => cases ran
  | succ fuel ih =>
    unfold evict at ran
    split at ran
    · rename_i older
      obtain ⟨holds,older⟩ := older
      change evict newFirst fuel { history.cleared history.first with
        first := add (history.cleared history.first).first } = some after at ran
      have gone : ¬(history.cleared history.first).isValid history.first = true :=
        fun valid => (cleared_valid.mp valid).2 rfl
      have emptied : ¬(history.cleared history.first).isValid (history.cleared history.first).first = true := by
        rw [cleared_first]
        exact gone
      by_cases more : (history.cleared history.first).active.Nonempty
      · obtain ⟨positive,next⟩ := window_advance (window_cleared window) emptied more
        obtain ⟨shrinks,last,count,sent,kept,evicted,rest⟩ := ih ran next
        refine ⟨shrinks_trans cleared_shrinks ⟨shrinks.numbers,shrinks.valid⟩,last.trans cleared_last,count,sent,?_,?_,?_⟩
        · intro other valid
          have before := (cleared_valid.mp (shrinks.valid other valid)).2
          exact (kept other valid).trans (cleared_other before)
        · intro other valid missing
          by_cases same : other = history.first
          · subst same
            exact older
          · have still : (history.cleared history.first).isValid other = true := cleared_valid.mpr ⟨valid,same⟩
            have number := evicted other still missing
            change seqLessThan ((history.cleared history.first).numberAt other) newFirst = true at number
            rwa [cleared_number] at number
        · rcases rest with none_left | ⟨m,bound,done⟩
          · exact .inl none_left
          · exact .inr ⟨m,by omega,done⟩
      · have freed : Shrinks history (history.cleared history.first) := cleared_shrinks
        have count : (history.cleared history.first).numActiveElements = _ := cleared_count window.count
        have nothing : (history.cleared history.first).numActiveElements = 0 := by
          by_contra some_left
          exact more ((active_nonempty count).mp some_left)
        have stopped : after = { history.cleared history.first with
            first := add (history.cleared history.first).first } := by
          cases fuel with
          | zero => cases ran
          | succ fuel =>
            unfold evict at ran
            rw [if_neg (fun again => again.1 nothing)] at ran
            exact (Option.some.inj ran).symm
        subst stopped
        have unused : ∀ other, ¬(history.cleared history.first).isValid other = true :=
          fun other valid => more ⟨other,mem_active.mpr valid⟩
        refine ⟨⟨freed.numbers,freed.valid⟩,cleared_last,count,(window_cleared window).sent,?_,?_,.inl nothing⟩
        · exact fun other valid => absurd valid (unused other)
        · intro other valid missing
          by_cases same : other = history.first
          · subst same
            exact older
          · exact absurd (cleared_valid.mpr ⟨valid,same⟩) missing
    · rename_i stops
      cases Option.some.inj ran
      refine ⟨shrinks_refl _,rfl,window.count,window.sent,fun _ _ => rfl,fun _ valid missing => absurd valid missing,?_⟩
      by_cases none_left : after.numActiveElements = 0
      · exact .inl none_left
      · exact .inr ⟨n,Nat.le_refl n,window,fun older => stops ⟨none_left,older⟩⟩

theorem framed_distinct (framed : Framed history newest n) (member : history.isValid offset = true)
    (ne : offset ≠ history.lastIndex) : 0 < n := by
  obtain ⟨k,bound,place,_⟩ := framed.within offset member
  cases k with
  | zero =>
    rw [place,behind_zero,window_lastIndex framed.toWindow] at ne
    exact absurd rfl ne
  | succ k => omega

theorem remove_cleared (history : DatagramHistoryList) (offset : Offset) : history.remove offset =
    if (history.cleared offset).numActiveElements = 0 then
      some ((history.cleared offset).last,{ history.cleared offset with first := (history.cleared offset).last })
    else if (history.cleared offset).first = offset then
      (advanceFirst scanFuel (history.cleared offset)).map fun history => (history.first,history)
    else if (history.cleared offset).lastIndex = offset then
      (retreatLast scanFuel (history.cleared offset)).map fun history => (history.last,history)
    else some (add offset,history.cleared offset) := rfl

theorem valid_same (same : after.elements = history.elements) (offset : Offset) :
    after.isValid offset = history.isValid offset := by
  unfold isValid
  rw [same]

theorem shrinks_same (shrinks : Shrinks history middle) (same : after.elements = middle.elements) :
    Shrinks history after := by
  refine ⟨?_,?_⟩
  · intro offset
    unfold numberAt
    rw [same]
    exact shrinks.numbers offset
  · intro offset valid
    rw [valid_same same] at valid
    exact shrinks.valid offset valid

theorem remove_framed (ran : history.remove offset = some (next,after)) (framed : Framed history newest n) :
    Shrinks history after ∧ (∀ other, other ≠ offset → after.elements other = history.elements other) ∧ Kept after ∧
      (after.numActiveElements = 0 ∨ offset = history.first ∨ after.first = history.first) ∧
      (after.numActiveElements = 0 ∨ offset = history.lastIndex ∨
        after.last = history.last ∧ ∃ m, m ≤ n ∧ Framed after newest m ∧
          (m = n ∧ next = add offset ∨ offset = history.first ∧ m < n ∧ next = slot (behind newest m))) := by
  have base : Window (history.cleared offset) newest n := window_cleared framed.toWindow
  have freed : Shrinks history (history.cleared offset) := cleared_shrinks
  have still : ∀ other, history.isValid other = true → other ≠ offset →
      (history.cleared offset).isValid other = true := fun other present ne => cleared_valid.mpr ⟨present,ne⟩
  have lastIndex : (history.cleared offset).lastIndex = history.lastIndex := congrArg sub cleared_last
  -- Only the bounds of the ring differ from the ring without the element.
  have elements : after.elements = (history.cleared offset).elements := by
    rw [remove_cleared] at ran
    split at ran
    · cases Option.some.inj ran
      rfl
    · rename_i holds
      have more := (active_nonempty base.count).mp holds
      split at ran
      · obtain ⟨moved,advance,same⟩ := Option.map_eq_some_iff.mp ran
        obtain ⟨_,_,_,_,kept⟩ := advanceFirst_window advance base more
        cases same
        rw [kept]
      · split at ran
        · obtain ⟨moved,retreat,same⟩ := Option.map_eq_some_iff.mp ran
          obtain ⟨_,_,_,_,kept⟩ := retreatLast_window retreat base more
          cases same
          rw [kept]
        · cases Option.some.inj ran
          rfl
  have others : ∀ other, other ≠ offset → after.elements other = history.elements other := by
    intro other ne
    rw [elements]
    exact cleared_other ne
  refine ⟨shrinks_same freed elements,others,?_⟩
  rw [remove_cleared] at ran
  split at ran
  · rename_i emptied
    cases Option.some.inj ran
    exact ⟨.empty emptied (base.count.symm.trans emptied) base.sent,.inl emptied,.inl emptied⟩
  · rename_i holds
    have more := (active_nonempty base.count).mp holds
    split at ran
    · rename_i atFirst
      obtain ⟨moved,advance,same⟩ := Option.map_eq_some_iff.mp ran
      obtain ⟨m,bound,window,oldest,kept⟩ := advanceFirst_window advance base more
      cases same
      rw [cleared_first] at atFirst
      have last : after.last = history.last := by
        rw [kept]
        exact cleared_last
      have differs : history.lastIndex ≠ offset := by
        intro same
        obtain ⟨member,present⟩ := more
        obtain ⟨before,ne⟩ := cleared_valid.mp (mem_active.mp present)
        have short : n = 0 := by
          refine slot_behind_inj newest framed.size (Nat.zero_le _) ?_
          rw [←framed.first,behind_zero,←window_lastIndex framed.toWindow,atFirst,same]
        have positive := framed_distinct framed before (same ▸ ne)
        omega
      have newestIn : after.isValid after.lastIndex = true := by
        rw [show after.lastIndex = history.lastIndex from congrArg sub last,valid_same elements]
        exact still _ framed.newestIn differs
      have shorter : m ≠ n := by
        intro same
        rw [window.first,same,←framed.first,atFirst,valid_same elements] at oldest
        exact (cleared_valid.mp oldest).2 rfl
      have whole : Framed after newest m := ⟨window,oldest,newestIn⟩
      exact ⟨.framed whole,.inr (.inl atFirst.symm),
        .inr (.inr ⟨last,m,bound,whole,.inr ⟨atFirst.symm,by omega,window.first⟩⟩)⟩
    · rename_i notFirst
      rw [cleared_first] at notFirst
      split at ran
      · rename_i atLast
        obtain ⟨moved,retreat,same⟩ := Option.map_eq_some_iff.mp ran
        obtain ⟨j,bound,window,newestIn,kept⟩ := retreatLast_window retreat base more
        cases same
        have first : after.first = history.first := by
          rw [kept]
          exact cleared_first
        have oldest : after.isValid after.first = true := by
          rw [first,valid_same elements]
          exact still _ framed.oldest notFirst
        exact ⟨.framed ⟨window,oldest,newestIn⟩,.inr (.inr first),.inr (.inl (atLast.symm.trans lastIndex))⟩
      · rename_i notLast
        rw [lastIndex] at notLast
        cases Option.some.inj ran
        have oldest : (history.cleared offset).isValid (history.cleared offset).first = true := by
          rw [cleared_first]
          exact still _ framed.oldest notFirst
        have newestIn : (history.cleared offset).isValid (history.cleared offset).lastIndex = true := by
          rw [lastIndex]
          exact still _ framed.newestIn notLast
        have whole : Framed (history.cleared offset) newest n := ⟨base,oldest,newestIn⟩
        exact ⟨.framed whole,.inr (.inr cleared_first),
          .inr (.inr ⟨cleared_last,n,Nat.le_refl n,whole,.inl ⟨rfl,rfl⟩⟩)⟩

theorem kept_holds (kept : Kept history) (valid : history.isValid offset = true) : history.numActiveElements ≠ 0 := by
  have present := mem_active.mpr valid
  cases kept with
  | empty _ none_active =>
    rw [Finset.card_eq_zero] at none_active
    rw [none_active] at present
    cases present
  | framed framed => exact (active_nonempty framed.count).mpr ⟨offset,present⟩

theorem framed_valid (framed : Framed history newest n) (valid : history.isValid offset = true) :
    0 ≤ (history.elements offset).numAcksSent := by
  have sent := framed.sent offset
  have used := isValid_iff.mp valid
  omega

theorem setAcks_valid (valid : history.isValid offset = true) (counts : 0 ≤ acks) (other : Offset) :
    (history.setAcks offset acks).isValid other = history.isValid other := by
  by_cases same : other = offset
  · subst same
    rw [valid,isValid_iff]
    simp only [setAcks,store_same]
    omega
  · simp [isValid,setAcks,same]

theorem setAcks_number (history : DatagramHistoryList) (offset : Offset) (acks : Int) (other : Offset) :
    (history.setAcks offset acks).numberAt other = history.numberAt other := by
  by_cases same : other = offset
  · subst same
    simp [numberAt,setAcks]
  · simp [numberAt,setAcks,same]

theorem framed_setAcks (framed : Framed history newest n) (valid : history.isValid offset = true) (counts : 0 ≤ acks) :
    Framed (history.setAcks offset acks) newest n := by
  have same := setAcks_valid valid counts
  have used : (history.setAcks offset acks).active = history.active := by
    ext other
    simp only [mem_active,same]
  refine ⟨⟨framed.size,framed.last,framed.first,?_,?_,?_⟩,?_,?_⟩
  · intro other present
    rw [same] at present
    rw [setAcks_number]
    exact framed.within other present
  · rw [used]
    exact framed.count
  · intro other
    by_cases own : other = offset
    · subst own
      simp only [setAcks,store_same]
      omega
    · simp only [setAcks,store_other own]
      exact framed.sent other
  · rw [same]
    exact framed.oldest
  · rw [same]
    exact framed.newestIn

theorem getForAck_framed (ran : history.getForAck offset = some (number,next,after)) (framed : Framed history newest n)
    (valid : history.isValid offset = true) :
    number = history.numberAt offset ∧ Shrinks history after ∧ Kept after ∧
      (offset ≠ history.first → after.first = history.first) ∧
      (∀ other, other ≠ offset → after.elements other = history.elements other) ∧
      ((history.elements offset).numAcksSent + 1 < maxNumAcks → after.last = history.last ∧
        after.isValid offset = true ∧
        (after.elements offset).numAcksSent = (history.elements offset).numAcksSent + 1 ∧ Framed after newest n) ∧
      (offset ≠ history.lastIndex → after.last = history.last ∧ ∃ m, m ≤ n ∧ Framed after newest m ∧
        (m = n ∧ next = add offset ∨ offset = history.first ∧ m < n ∧ next = slot (behind newest m))) := by
  have counts := framed_valid framed valid
  have acks : 0 ≤ (history.elements offset).numAcksSent + 1 := by omega
  have noted := framed_setAcks framed valid acks
  have same := setAcks_valid valid acks
  have shrinks : Shrinks history (history.setAcks offset ((history.elements offset).numAcksSent + 1)) :=
    ⟨setAcks_number history offset _,fun other present => (same other).symm.trans present⟩
  have others : ∀ other, other ≠ offset →
      (history.setAcks offset ((history.elements offset).numAcksSent + 1)).elements other = history.elements other :=
    fun other ne => store_other ne
  unfold getForAck at ran
  dsimp only at ran
  split at ran
  · rename_i enough
    obtain ⟨⟨place,moved⟩,removed,pair⟩ := Option.map_eq_some_iff.mp ran
    cases pair
    obtain ⟨less,untouched,kept,front,ends⟩ := remove_framed removed noted
    have elements : ∀ other, other ≠ offset → moved.elements other = history.elements other :=
      fun other ne => (untouched other ne).trans (others other ne)
    have stays : ∀ other, history.isValid other = true → other ≠ offset → moved.numActiveElements ≠ 0 := by
      intro other present ne
      have left : moved.isValid other = true := by
        unfold isValid
        rw [elements other ne]
        exact present
      exact kept_holds kept left
    refine ⟨rfl,shrinks_trans shrinks less,kept,?_,elements,?_,?_⟩
    · intro ne
      rcases front with emptied | atFirst | same
      · exact absurd emptied (stays _ framed.oldest (Ne.symm ne))
      · exact absurd atFirst ne
      · exact same
    · intro few
      omega
    · intro ne
      rcases ends with emptied | atLast | rest
      · exact absurd emptied (stays _ framed.newestIn (Ne.symm ne))
      · exact absurd atLast ne
      · exact rest
  · rename_i few
    cases Option.some.inj ran
    refine ⟨rfl,shrinks,.framed noted,fun _ => rfl,others,?_,?_⟩
    · intro _
      refine ⟨rfl,(same offset).trans valid,?_,noted⟩
      simp [setAcks]
    · intro _
      exact ⟨rfl,n,Nat.le_refl n,noted,.inl ⟨rfl,rfl⟩⟩

-- The walk goes from one element to a newer one and stops in front of the newest.
theorem ackWalk_framed (ran : ackWalk fuel (slot (behind newest i)) history = some (acked,after))
    (framed : Framed history newest n) (inside : i ≤ n) :
    Shrinks history after ∧ (∃ m, Framed after newest m) ∧
      after.last = history.last ∧ after.elements history.lastIndex = history.elements history.lastIndex ∧
      (∀ number ∈ acked, ∃ offset, history.isValid offset = true ∧ history.numberAt offset = number) ∧
      (∀ k, i < k → k ≤ n → after.elements (slot (behind newest k)) = history.elements (slot (behind newest k))) ∧
      (∀ offset, history.isValid offset = true → (history.elements offset).numAcksSent + 1 < maxNumAcks →
        after.isValid offset = true ∧
          (after.elements offset).numAcksSent ≤ (history.elements offset).numAcksSent + 1) := by
  have idle : ∀ history : DatagramHistoryList, ∀ offset, history.isValid offset = true →
      (history.elements offset).numAcksSent + 1 < maxNumAcks → history.isValid offset = true ∧
        (history.elements offset).numAcksSent ≤ (history.elements offset).numAcksSent + 1 := by
    intro history offset valid _
    exact ⟨valid,by omega⟩
  induction fuel generalizing history n i acked with
  | zero => cases ran
  | succ fuel ih =>
    unfold ackWalk at ran
    split at ran
    · cases Option.some.inj ran
      exact ⟨shrinks_refl _,⟨n,framed⟩,rfl,rfl,by simp,fun _ _ _ => rfl,idle _⟩
    · rename_i goes
      obtain ⟨notNewest,_⟩ := not_or.mp goes
      have size := framed.size
      have positive := newest_positive framed.toWindow notNewest
      have forward := add_behind newest positive
      split at ran
      · rename_i valid
        obtain ⟨⟨current,next,middle⟩,visit,ran⟩ := Option.bind_eq_some_iff.mp ran
        obtain ⟨⟨others,final⟩,walk,ran⟩ := Option.bind_eq_some_iff.mp ran
        cases Option.some.inj ran
        obtain ⟨rfl,shrinks,_,_,untouched,once,moves⟩ := getForAck_framed visit framed valid
        obtain ⟨last,m,bound,inner,place⟩ := moves notNewest
        -- The next index is again a number of the window, and a newer one.
        obtain ⟨j,earlier,within,rfl,whole_or_last⟩ : ∃ j, j < i ∧ j ≤ m ∧ next = slot (behind newest j) ∧
            (m = n ∨ i = n) := by
          rcases place with ⟨same,ahead⟩ | ⟨oldest,shorter,ahead⟩
          · exact ⟨i - 1,by omega,by omega,ahead.trans forward,.inl same⟩
          · have top : i = n := slot_behind_inj newest (by omega) size (oldest.trans framed.first)
            exact ⟨m,by omega,Nat.le_refl m,ahead,.inr top⟩
        obtain ⟨less,whole,end_same,newest_same,numbers,behind_same,counts⟩ := ih walk inner within
        have lastIndex : middle.lastIndex = history.lastIndex := congrArg sub last
        rw [lastIndex,untouched _ (Ne.symm notNewest)] at newest_same
        refine ⟨shrinks_trans shrinks less,whole,end_same.trans last,newest_same,?_,?_,?_⟩
        · intro number present
          rcases List.mem_cons.mp present with rfl | later
          · exact ⟨_,valid,rfl⟩
          · obtain ⟨offset,used,same⟩ := numbers number later
            exact ⟨offset,shrinks.valid offset used,(shrinks.numbers offset).symm.trans same⟩
        · intro k older bound
          have differs : slot (behind newest k) ≠ slot (behind newest i) := by
            intro same
            have equal := slot_behind_inj newest (by omega) (by omega) same
            omega
          rw [behind_same k (by omega) (by omega),untouched _ differs]
        · intro offset used few
          by_cases own : offset = slot (behind newest i)
          · subst own
            obtain ⟨_,kept,count,_⟩ := once few
            obtain ⟨k,small,same,_⟩ := inner.within _ kept
            have equal := slot_behind_inj newest (by omega) (Nat.le_trans small inner.size) same
            have last := behind_same i earlier (by omega)
            refine ⟨?_,?_⟩
            · unfold isValid
              rw [last]
              exact kept
            · rw [last,count]
          · have same := untouched offset own
            have kept : middle.isValid offset = true := by
              unfold isValid
              rw [same]
              exact used
            have result := counts offset kept (by rw [same]; exact few)
            rw [same] at result
            exact result
      · rename_i empty
        rw [forward] at ran
        obtain ⟨shrinks,whole,end_same,newest_same,numbers,behind_same,counts⟩ := ih ran framed (by omega)
        exact ⟨shrinks,whole,end_same,newest_same,numbers,fun k older bound => behind_same k (by omega) bound,counts⟩

-- The walk of a frame starts at an element, since the newest one is not the oldest.
theorem walk_start (visit : history.getForAck history.lastIndex = some (number,next,middle))
    (framed : Framed history newest n)
    (apart : sequenceNumberSequentialDistance (history.numberAt history.first) number ≠ 0) :
    ∃ last m, Framed middle last m ∧ history.first = slot (behind last m) := by
  obtain ⟨same,_,kept,front,others,_⟩ := getForAck_framed visit framed framed.newestIn
  have differs : history.lastIndex ≠ history.first := by
    intro equal
    rw [same,equal] at apart
    exact apart ((distance_zero_iff _ _).mpr rfl)
  have held : middle.isValid history.first = true := by
    unfold isValid
    rw [others _ (Ne.symm differs)]
    exact framed.oldest
  have holds := kept_holds kept held
  cases kept with
  | empty none_left => exact absurd none_left holds
  | framed inner => exact ⟨_,_,inner,(front differs).symm.trans inner.first⟩

theorem writeAckHistory_kept (ran : writeAckHistory history = some (bytes,lastToAck,after)) (kept : Kept history) :
    Kept after ∧ Shrinks history after ∧
      (∀ offset, history.isValid offset = true → (history.elements offset).numAcksSent + 1 < maxNumAcks →
        after.isValid offset = true ∧
          (after.elements offset).numAcksSent ≤ (history.elements offset).numAcksSent + 1) ∧
      (history.numActiveElements ≠ 0 → (history.elements history.lastIndex).numAcksSent + 1 < maxNumAcks →
        after.last = history.last) := by
  rcases writeAckHistory_cases ran with ⟨none_left,_,_,rfl⟩ | ⟨holds,newest_number,next,middle,visit,_,rest⟩
  · refine ⟨kept,shrinks_refl _,?_,fun _ _ => rfl⟩
    intro offset valid _
    exact ⟨valid,by omega⟩
  · cases kept with
    | empty none_left => exact absurd none_left holds
    | framed framed =>
      rename_i newest n
      obtain ⟨_,shrinks,kept,_,others,once,_⟩ := getForAck_framed visit framed framed.newestIn
      have counts : ∀ offset, history.isValid offset = true →
          (history.elements offset).numAcksSent + 1 < maxNumAcks → middle.isValid offset = true ∧
            (middle.elements offset).numAcksSent = (history.elements offset).numAcksSent +
              if offset = history.lastIndex then 1 else 0 := by
        intro offset valid few
        by_cases own : offset = history.lastIndex
        · subst own
          obtain ⟨_,stays,count,_⟩ := once few
          exact ⟨stays,by rw [count,if_pos rfl]⟩
        · refine ⟨?_,?_⟩
          · unfold isValid
            rw [others offset own]
            exact valid
          · rw [others offset own,if_neg own]
            omega
      rcases rest with ⟨_,_,rfl⟩ | ⟨acked,walk,apart,_⟩
      · refine ⟨kept,shrinks,?_,fun _ few => (once few).1⟩
        intro offset valid few
        obtain ⟨stays,count⟩ := counts offset valid few
        exact ⟨stays,by split at count <;> omega⟩
      · obtain ⟨last,m,inner,start⟩ := walk_start visit framed apart
        rw [start] at walk
        obtain ⟨less,⟨_,whole⟩,end_same,newest_same,_,_,walked⟩ := ackWalk_framed walk inner (Nat.le_refl _)
        refine ⟨.framed whole,shrinks_trans shrinks less,?_,fun _ few => end_same.trans (once few).1⟩
        intro offset valid few
        obtain ⟨stays,count⟩ := counts offset valid few
        by_cases own : offset = history.lastIndex
        · subst own
          have lastIndex : middle.lastIndex = history.lastIndex := congrArg sub (once few).1
          rw [lastIndex] at newest_same
          rw [if_pos rfl] at count
          unfold isValid
          rw [newest_same]
          exact ⟨stays,by omega⟩
        · rw [if_neg own] at count
          obtain ⟨still,more⟩ := walked offset stays (by omega)
          exact ⟨still,by omega⟩

end Window

-- Inserting.

-- The offsets in the order of the walk from the first one.
def ahead (history : DatagramHistoryList) (i : Nat) : Offset := history.first + Fin.ofNat 512 i

-- Eviction stops at no empty slot: each one that lies in front of the oldest
-- element that stays carries a stale number that is older than the bound too.
def EvictsCleanly (newFirst : SequenceNumber) (history : DatagramHistoryList) : Prop :=
  ∀ i, i < 512 → ¬history.isValid (history.ahead i) = true →
    (∀ j, j < i → history.isValid (history.ahead j) = true →
      seqLessThan (history.numberAt (history.ahead j)) newFirst = true) →
    (∃ j, i < j ∧ j < 512 ∧ history.isValid (history.ahead j) = true) →
    seqLessThan (history.numberAt (history.ahead i)) newFirst = true

-- A number that is newer than the last element and evicts cleanly, or one from the
-- first element to the last one.
def InOrder (history : DatagramHistoryList) (id : SequenceNumber) : Prop :=
  history.numActiveElements ≠ 0 →
    (seqLessThan (history.numberAt history.lastIndex) id = true ∧ EvictsCleanly (id - 511) history) ∨
    sequenceNumberSequentialDistance (history.numberAt history.first) id ≤
      sequenceNumberSequentialDistance (history.numberAt history.first) (history.numberAt history.lastIndex)

section Insert
variable {history middle after : DatagramHistoryList} {newest newFirst id : SequenceNumber} {offset : Offset}

theorem ahead_val (history : DatagramHistoryList) (i : Nat) :
    (history.ahead i).val = (history.first.val + i) % 512 := by
  simp [ahead,Fin.val_add,Fin.ofNat]

theorem ahead_inj (small : i < 512) (other : j < 512) (same : history.ahead i = history.ahead j) : i = j := by
  have values := congrArg Fin.val same
  simp only [ahead_val] at values
  have := history.first.isLt
  omega

theorem ahead_zero (history : DatagramHistoryList) : history.ahead 0 = history.first := by
  apply Fin.ext
  rw [ahead_val]
  exact Nat.mod_eq_of_lt history.first.isLt

theorem ahead_reaches (history : DatagramHistoryList) (offset : Offset) : ∃ i, i < 512 ∧ history.ahead i = offset := by
  have := history.first.isLt
  have := offset.isLt
  refine ⟨(offset.val + (512 - history.first.val)) % 512,by omega,?_⟩
  apply Fin.ext
  rw [ahead_val]
  omega

theorem ahead_next (same : after.first = add history.first) (i : Nat) : after.ahead i = history.ahead (i + 1) := by
  apply Fin.ext
  rw [ahead_val,ahead_val,same,add_val]
  omega

theorem evicted_cleanly (ran : evict newFirst fuel history = some after)
    (count : history.numActiveElements = history.active.card) (clean : EvictsCleanly newFirst history) :
    after.numActiveElements = 0 ∨ after.isValid after.first = true := by
  induction fuel generalizing history with
  | zero => cases ran
  | succ fuel ih =>
    unfold evict at ran
    split at ran
    · rename_i older
      obtain ⟨_,older⟩ := older
      change evict newFirst fuel { history.cleared history.first with
        first := add (history.cleared history.first).first } = some after at ran
      refine ih ran (cleared_count count) ?_
      have next : ∀ i, ahead { history.cleared history.first with
          first := add (history.cleared history.first).first } i = history.ahead (i + 1) :=
        ahead_next (congrArg add cleared_first)
      have moved : ∀ i, i + 1 < 512 → history.ahead (i + 1) ≠ history.first := by
        intro i bound same
        have zero := ahead_inj bound (by omega) (same.trans (ahead_zero history).symm)
        omega
      have back : history.ahead 512 = history.first := by
        apply Fin.ext
        have := history.first.isLt
        rw [ahead_val]
        omega
      intro i bound empty earlier later
      obtain ⟨j,above,below,used⟩ := later
      change ¬(history.cleared history.first).isValid _ = true at empty
      change (history.cleared history.first).isValid _ = true at used
      change seqLessThan ((history.cleared history.first).numberAt _) newFirst = true
      rw [next] at empty used ⊢
      rw [cleared_valid] at empty used
      rw [cleared_number]
      have inside : j + 1 < 512 := by
        rcases Nat.lt_or_ge (j + 1) 512 with inside | outside
        · exact inside
        · have last : j + 1 = 512 := by omega
          rw [last,back] at used
          exact absurd rfl used.2
      refine clean (i + 1) (by omega) ?_ ?_ ⟨j + 1,by omega,inside,used.1⟩
      · exact fun valid => empty ⟨valid,moved i (by omega)⟩
      · intro k less valid
        cases k with
        | zero =>
          rw [ahead_zero]
          exact older
        | succ k =>
          have old := earlier k (by omega)
          change (history.cleared history.first).isValid _ = true → _ at old
          rw [next,cleared_valid] at old
          have number := old ⟨valid,moved k (by omega)⟩
          change seqLessThan ((history.cleared history.first).numberAt _) newFirst = true at number
          rwa [cleared_number] at number
    · rename_i stops
      cases Option.some.inj ran
      by_cases none_left : after.numActiveElements = 0
      · exact .inl none_left
      · refine .inr ?_
        by_contra empty
        refine stops ⟨none_left,?_⟩
        obtain ⟨member,present⟩ := (active_nonempty count).mp none_left
        obtain ⟨i,bound,same⟩ := ahead_reaches after member
        have later : 0 < i := by
          cases i with
          | zero =>
            rw [ahead_zero] at same
            rw [same] at empty
            exact absurd (mem_active.mp present) empty
          | succ i => omega
        have first := clean 0 (by omega)
        rw [ahead_zero] at first
        exact first empty (fun j below => absurd below (Nat.not_lt_zero j))
          ⟨i,later,bound,same ▸ mem_active.mp present⟩

theorem seqLessThan_iff (a b : SequenceNumber) : seqLessThan a b = true ↔
    0 < sequenceNumberSequentialDistance a b ∧ sequenceNumberSequentialDistance a b < 32768 := by
  unfold seqLessThan sequenceNumberSequentialDistance
  simp only [Bool.and_eq_true,bne_iff_ne,decide_eq_true_eq]
  constructor
  · exact fun less => ⟨less.1.2,less.2⟩
  · intro less
    refine ⟨⟨?_,less.1⟩,less.2⟩
    rintro rfl
    simp at less

-- A new element in an unused slot.
theorem store_active (used : element.numAcksSent ≠ -1) :
    (history.store offset element).active = Insert.insert offset history.active := by
  ext other
  by_cases same : other = offset
  · subst same
    simp [isValid,used]
  · simp [isValid,same]

theorem store_counts (count : history.numActiveElements = history.active.card) (empty : ¬history.isValid offset = true)
    (used : element.numAcksSent ≠ -1) :
    history.numActiveElements + 1 = (history.store offset element).active.card := by
  rw [store_active used,Finset.card_insert_of_notMem (fun present => empty (mem_active.mp present)),count]

-- What an accepted number changes: its own slot, and the elements that are too far
-- behind it.
structure Inserted (before after : DatagramHistoryList) (id : SequenceNumber) : Prop where
  kept : Kept after
  entry : after.elements (slot id) = ⟨id,0⟩
  fresh : before.numActiveElements ≠ 0 → ¬(before.isValid (slot id) = true ∧ before.numberAt (slot id) = id)
  old : ∀ offset, before.isValid offset = true → after.elements offset = before.elements offset ∨
    seqLessThan (before.numberAt offset) (id - 511) = true ∧ after.lastIndex = slot id ∧
      seqLessThan (before.numberAt before.lastIndex) id = true
  new : ∀ offset, after.isValid offset = true → offset = slot id ∨
    before.isValid offset = true ∧ after.elements offset = before.elements offset
  newest : after.lastIndex = slot id ∧
      (before.numActiveElements = 0 ∨ seqLessThan (before.numberAt before.lastIndex) id = true) ∨
    after.last = before.last

theorem alone_framed (unused : history.active.card = 0) (sent : ∀ offset, -1 ≤ (history.elements offset).numAcksSent)
    (first : history.first = slot id) (last : history.last = add (slot id)) (one : history.numActiveElements = 1) :
    Framed (history.store (slot id) ⟨id,0⟩) id 0 := by
  have none_valid : ∀ offset, ¬history.isValid offset = true := by
    intro offset valid
    have present := mem_active.mpr valid
    rw [Finset.card_eq_zero.mp unused] at present
    cases present
  have lastIndex : (history.store (slot id) ⟨id,0⟩).lastIndex = slot id := by
    unfold lastIndex
    rw [store_last,last,sub_add]
  have used : (history.store (slot id) ⟨id,0⟩).isValid (slot id) = true := by simp [isValid]
  refine ⟨⟨Nat.zero_le _,?_,?_,?_,?_,?_⟩,?_,?_⟩
  · rw [store_last,last,add_slot]
  · rw [store_first,first,behind_zero]
  · intro offset valid
    by_cases same : offset = slot id
    · refine ⟨0,Nat.le_refl 0,?_,?_⟩
      · rw [behind_zero,same]
      · rw [behind_zero,same]
        simp [numberAt]
    · unfold isValid at valid
      rw [store_other same] at valid
      exact absurd valid (none_valid offset)
  · rw [store_active (by simp),store_count,one,Finset.card_eq_zero.mp unused]
    rfl
  · intro offset
    by_cases same : offset = slot id
    · simp [same]
    · rw [store_other same]
      exact sent offset
  · rw [store_first,first]
    exact used
  · rw [lastIndex]
    exact used

theorem first_number (window : Window history newest n) (oldest : history.isValid history.first = true) :
    history.numberAt history.first = behind newest n := by
  obtain ⟨k,bound,place,number⟩ := window.within _ oldest
  have same := slot_behind_inj newest (Nat.le_trans bound window.size) window.size (place.symm.trans window.first)
  rw [number,same]

theorem last_number (framed : Framed history newest n) : history.numberAt history.lastIndex = newest := by
  obtain ⟨k,bound,place,number⟩ := framed.within _ framed.newestIn
  have same : 0 = k := by
    refine slot_behind_inj newest (Nat.zero_le _) (Nat.le_trans bound framed.size) ?_
    rw [behind_zero,←place,window_lastIndex framed.toWindow]
  rw [number,←same,behind_zero]

theorem append_framed (window : Window middle newest m) (oldest : middle.isValid middle.first = true)
    (newer : seqLessThan newest id = true) (recent : ¬seqLessThan (middle.numberAt middle.first) (id - 511) = true) :
    Framed (middle.append id) id (sequenceNumberSequentialDistance newest id + m) ∧
      ¬middle.isValid (slot id) = true := by
  have holds : middle.numActiveElements ≠ 0 := (active_nonempty window.count).mpr ⟨_,mem_active.mpr oldest⟩
  obtain ⟨positive,half⟩ := (seqLessThan_iff _ _).mp newer
  have size := window.size
  -- The oldest element that stays lies within the ring behind the new number.
  have fits : sequenceNumberSequentialDistance newest id + m ≤ 511 := by
    by_contra far
    refine recent ((seqLessThan_iff _ _).mpr ?_)
    rw [first_number window oldest]
    unfold sequenceNumberSequentialDistance at far positive half ⊢
    simp only [BitVec.toNat_sub,behind_toNat newest (show m ≤ 65536 by omega)] at far positive half ⊢
    have := newest.isLt
    have := id.isLt
    simp
    omega
  have shift : ∀ k, behind id (sequenceNumberSequentialDistance newest id + k) = behind newest k := by
    intro k
    rw [←behind_behind,behind_distance]
  have unused : ¬middle.isValid (slot id) = true := by
    intro valid
    obtain ⟨k,bound,place,_⟩ := window.within _ valid
    have same : 0 = sequenceNumberSequentialDistance newest id + k := by
      refine slot_behind_inj id (Nat.zero_le _) (by omega) ?_
      rw [behind_zero,shift,←place]
    omega
  have appended : middle.append id = { middle with
      last := add (slot id), numActiveElements := middle.numActiveElements + 1 }.store (slot id) ⟨id,0⟩ := by
    unfold append
    dsimp only
    rw [if_neg holds,sub_add]
  have used : (middle.append id).isValid (slot id) = true := by
    rw [appended]
    simp [isValid]
  have other_valid : ∀ offset, offset ≠ slot id → (middle.append id).isValid offset = middle.isValid offset := by
    intro offset ne
    rw [appended]
    unfold isValid
    rw [store_other ne]
  have lastIndex : (middle.append id).lastIndex = slot id := by
    rw [appended]
    exact sub_add _
  refine ⟨⟨⟨fits,?_,?_,?_,?_,?_⟩,?_,?_⟩,unused⟩
  · rw [appended,←add_slot]
    rfl
  · rw [appended,shift]
    exact window.first
  · intro offset valid
    by_cases same : offset = slot id
    · refine ⟨0,Nat.zero_le _,?_,?_⟩
      · rw [behind_zero,same]
      · rw [behind_zero,same,appended]
        simp [numberAt]
    · rw [other_valid offset same] at valid
      obtain ⟨k,bound,place,number⟩ := window.within offset valid
      refine ⟨sequenceNumberSequentialDistance newest id + k,by omega,?_,?_⟩
      · rw [shift,place]
      · rw [shift,←number,appended]
        unfold numberAt
        rw [store_other same]
  · rw [appended,store_count]
    exact store_counts window.count unused (by simp)
  · intro offset
    rw [appended]
    by_cases same : offset = slot id
    · simp [same]
    · rw [store_other same]
      exact window.sent offset
  · have first : (middle.append id).first = middle.first := by
      rw [appended]
      rfl
    have ne : middle.first ≠ slot id := by
      intro same
      rw [same] at oldest
      exact unused oldest
    rw [first,other_valid _ ne]
    exact oldest
  · rw [lastIndex]
    exact used

theorem unused_slots (unused : history.active.card = 0) (offset : Offset) : ¬history.isValid offset = true := by
  intro valid
  have present := mem_active.mpr valid
  rw [Finset.card_eq_zero.mp unused] at present
  cases present

theorem entry_number (entry : after.elements (slot id) = ⟨id,0⟩) : after.isValid (slot id) = true := by
  simp [isValid,entry]

theorem behind_of_inside (size : n ≤ 511)
    (inside : sequenceNumberSequentialDistance (behind newest n) id ≤
      sequenceNumberSequentialDistance (behind newest n) newest) : ∃ k, k ≤ n ∧ id = behind newest k := by
  have far : n ≤ 65536 := by omega
  have := newest.isLt
  have := id.isLt
  unfold sequenceNumberSequentialDistance at inside
  simp only [BitVec.toNat_sub,behind_toNat newest far] at inside
  refine ⟨(newest.toNat + 65536 - id.toNat) % 65536,by omega,?_⟩
  apply BitVec.eq_of_toNat_eq
  rw [behind_toNat _ (by omega)]
  omega

theorem behind_not_newer (small : k ≤ 511) : ¬seqLessThan newest (behind newest k) = true := by
  have far : k ≤ 65536 := by omega
  have := newest.isLt
  rw [seqLessThan_iff]
  unfold sequenceNumberSequentialDistance
  simp only [BitVec.toNat_sub,behind_toNat newest far]
  omega

theorem append_alone (none_left : middle.numActiveElements = 0) : middle.append id = { middle with
    first := slot id, last := add (slot id), numActiveElements := 1 }.store (slot id) ⟨id,0⟩ := by
  unfold append
  dsimp only
  rw [if_pos none_left,sub_add]
  dsimp only
  rw [none_left]

theorem append_elements (middle : DatagramHistoryList) (id : SequenceNumber) :
    (middle.append id).elements = (middle.store (slot id) ⟨id,0⟩).elements ∧
      (middle.append id).lastIndex = slot id := by
  unfold append
  dsimp only
  split
  · rw [sub_add]
    exact ⟨rfl,sub_add _⟩
  · rw [sub_add]
    exact ⟨rfl,sub_add _⟩

theorem append_inserted (ran : evict (id - 511) fuel history = some middle) (framed : Framed history newest n)
    (newer : seqLessThan newest id = true) (clean : EvictsCleanly (id - 511) history) :
    Inserted history (middle.append id) id := by
  obtain ⟨shrinks,_,count,sent,elements,gone,rest⟩ := evict_window ran framed.toWindow
  obtain ⟨appended,lastIndex⟩ := append_elements middle id
  -- A slot of the new number is not in use after the eviction.
  have whole : Kept (middle.append id) ∧ ¬middle.isValid (slot id) = true := by
    by_cases none_left : middle.numActiveElements = 0
    · have unused := count.symm.trans none_left
      rw [append_alone none_left]
      exact ⟨.framed (alone_framed unused sent rfl rfl rfl),unused_slots unused _⟩
    · obtain ⟨m,_,window,recent⟩ := rest.resolve_left none_left
      have oldest := (evicted_cleanly ran framed.count clean).resolve_left none_left
      obtain ⟨framed,empty⟩ := append_framed window oldest newer recent
      exact ⟨.framed framed,empty⟩
  have others : ∀ offset, offset ≠ slot id → (middle.append id).elements offset = middle.elements offset := by
    intro offset ne
    rw [appended,store_other ne]
  rw [←last_number framed] at newer
  refine ⟨whole.1,?_,?_,?_,?_,.inl ⟨lastIndex,.inr newer⟩⟩
  · rw [appended,store_same]
  · intro _ present
    obtain ⟨k,small,_,number⟩ := framed.within _ present.1
    rw [number] at present
    rw [←present.2,last_number framed] at newer
    exact behind_not_newer (Nat.le_trans small framed.size) newer
  · intro offset valid
    by_cases stays : middle.isValid offset = true
    · have ne : offset ≠ slot id := by
        intro same
        rw [same] at stays
        exact whole.2 stays
      exact .inl ((others offset ne).trans (elements offset stays))
    · exact .inr ⟨gone offset valid stays,lastIndex,newer⟩
  · intro offset valid
    by_cases same : offset = slot id
    · exact .inl same
    · unfold isValid at valid
      rw [others offset same] at valid
      exact .inr ⟨shrinks.valid offset valid,(others offset same).trans (elements offset valid)⟩

theorem window_slot (window : Window history newest n) (small : k ≤ n)
    (absent : ¬(history.numberAt (slot (behind newest k)) = behind newest k ∧
      history.isValid (slot (behind newest k)) = true)) : ¬history.isValid (slot (behind newest k)) = true := by
  intro valid
  obtain ⟨other,bound,place,number⟩ := window.within _ valid
  have size := window.size
  have same := slot_behind_inj newest (by omega) (by omega) place
  exact absent ⟨same ▸ number,valid⟩

theorem fill_inserted (framed : Framed history newest n) (small : k ≤ n)
    (empty : ¬history.isValid (slot (behind newest k)) = true) :
    Inserted history ({ history with numActiveElements := history.numActiveElements + 1 }.store
      (slot (behind newest k)) ⟨behind newest k,0⟩) (behind newest k) := by
  have ne : ∀ offset, history.isValid offset = true → offset ≠ slot (behind newest k) := by
    intro offset valid same
    rw [same] at valid
    exact empty valid
  have still : ∀ offset, history.isValid offset = true →
      ({ history with numActiveElements := history.numActiveElements + 1 }.store
        (slot (behind newest k)) ⟨behind newest k,0⟩).isValid offset = true := by
    intro offset valid
    unfold isValid
    rw [store_other (ne offset valid)]
    exact valid
  have whole : Framed ({ history with numActiveElements := history.numActiveElements + 1 }.store
      (slot (behind newest k)) ⟨behind newest k,0⟩) newest n := by
    refine ⟨⟨framed.size,framed.last,framed.first,?_,?_,?_⟩,still _ framed.oldest,still _ framed.newestIn⟩
    · intro offset valid
      by_cases same : offset = slot (behind newest k)
      · subst same
        exact ⟨k,small,rfl,by simp [numberAt]⟩
      · unfold isValid at valid
        rw [store_other same] at valid
        unfold numberAt
        rw [store_other same]
        exact framed.within offset valid
    · exact store_counts framed.count empty (by simp)
    · intro offset
      by_cases same : offset = slot (behind newest k)
      · simp [same]
      · rw [store_other same]
        exact framed.sent offset
  refine ⟨.framed whole,store_same,fun _ present => empty present.1,?_,?_,.inr rfl⟩
  · exact fun offset valid => .inl (store_other (ne offset valid))
  · intro offset valid
    by_cases same : offset = slot (behind newest k)
    · exact .inl same
    · unfold isValid at valid
      rw [store_other same] at valid
      exact .inr ⟨valid,store_other same⟩

theorem insert_cases (ran : history.insert id = some (fresh,after)) (kept : Kept history) (ordered : InOrder history id) :
    fresh = false ∧ after = history ∧ history.isValid (slot id) = true ∧ history.numberAt (slot id) = id ∨
      fresh = true ∧ Inserted history after id := by
  unfold DatagramHistoryList.insert at ran
  dsimp only at ran
  cases kept with
  | empty none_left unused sent =>
    rw [if_neg (fun holds => holds none_left)] at ran
    cases Option.some.inj ran
    have alone : Framed ({ history with
        first := slot id, last := add (slot id), numActiveElements := 1 }.store (slot id) ⟨id,0⟩) id 0 :=
      alone_framed unused sent rfl rfl rfl
    refine .inr ⟨rfl,.framed alone,store_same,fun holds => absurd none_left holds,?_,?_,.inl ⟨sub_add _,.inl none_left⟩⟩
    · exact fun offset valid => absurd valid (unused_slots unused offset)
    · intro offset valid
      by_cases same : offset = slot id
      · exact .inl same
      · unfold isValid at valid
        rw [store_other same] at valid
        exact absurd valid (unused_slots unused offset)
  | framed framed =>
    rename_i newest n
    have holds : history.numActiveElements ≠ 0 :=
      (active_nonempty framed.count).mpr ⟨_,mem_active.mpr framed.oldest⟩
    rw [if_pos holds,last_number framed] at ran
    have allowed := ordered holds
    rw [last_number framed,first_number framed.toWindow framed.oldest] at allowed
    split at ran
    · rename_i newer
      obtain ⟨middle,evicts,same⟩ := Option.map_eq_some_iff.mp ran
      cases same
      refine .inr ⟨rfl,?_⟩
      rcases allowed with ⟨_,clean⟩ | inside
      · exact append_inserted evicts framed newer clean
      · obtain ⟨k,small,rfl⟩ := behind_of_inside framed.size inside
        exact absurd newer (behind_not_newer (Nat.le_trans small framed.size))
    · rename_i older
      rcases allowed with ⟨newer,_⟩ | inside
      · exact absurd newer older
      · obtain ⟨k,small,rfl⟩ := behind_of_inside framed.size inside
        split at ran
        · rename_i present
          cases Option.some.inj ran
          exact .inl ⟨rfl,rfl,present.2,present.1⟩
        · rename_i absent
          have empty := window_slot framed.toWindow small absent
          rw [if_neg empty] at ran
          cases Option.some.inj ran
          exact .inr ⟨rfl,fill_inserted framed small empty⟩

end Insert

end DatagramHistoryList
end NwNetwork.Carrier
