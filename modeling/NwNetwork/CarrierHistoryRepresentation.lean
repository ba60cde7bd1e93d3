import NwNetwork.CarrierHistoryWindow
import NwNetwork.StateRuns

namespace NwNetwork.Carrier
namespace DatagramHistoryList

-- None of the loops runs out of fuel on a history as it is between two calls.
section Returns
variable {history : DatagramHistoryList} {newest id newFirst : SequenceNumber} {offset : Offset}

theorem advanceFirst_returns (window : Window history newest n) (holds : history.active.Nonempty) (enough : n < fuel) :
    ∃ after, advanceFirst fuel history = some after := by
  induction fuel generalizing history n with
  | zero => exact absurd enough (Nat.not_lt_zero n)
  | succ fuel ih =>
    unfold advanceFirst
    by_cases valid : history.isValid history.first = true
    · exact ⟨history,if_pos valid⟩
    · obtain ⟨positive,next⟩ := window_advance window valid holds
      obtain ⟨after,ran⟩ := ih next holds (by omega)
      exact ⟨after,(if_neg valid).trans ran⟩

theorem retreatLast_returns (window : Window history newest n) (holds : history.active.Nonempty) (enough : n < fuel) :
    ∃ after, retreatLast fuel history = some after := by
  induction fuel generalizing history newest n with
  | zero => exact absurd enough (Nat.not_lt_zero n)
  | succ fuel ih =>
    unfold retreatLast
    by_cases valid : history.isValid history.lastIndex = true
    · exact ⟨history,if_pos valid⟩
    · obtain ⟨positive,next⟩ := window_retreat window valid holds
      obtain ⟨after,ran⟩ := ih next holds (by omega)
      exact ⟨after,(if_neg valid).trans ran⟩

theorem remove_returns (framed : Framed history newest n) (offset : Offset) :
    ∃ next after, history.remove offset = some (next,after) := by
  have base : Window (history.cleared offset) newest n := window_cleared framed.toWindow
  have size := framed.size
  rw [remove_cleared]
  split
  · exact ⟨_,_,rfl⟩
  · rename_i holds
    have more := (active_nonempty base.count).mp holds
    split
    · obtain ⟨after,ran⟩ := advanceFirst_returns base more (show n < scanFuel by unfold scanFuel; omega)
      rw [ran]
      exact ⟨_,_,rfl⟩
    · split
      · obtain ⟨after,ran⟩ := retreatLast_returns base more (show n < scanFuel by unfold scanFuel; omega)
        rw [ran]
        exact ⟨_,_,rfl⟩
      · exact ⟨_,_,rfl⟩

theorem getForAck_returns (framed : Framed history newest n) (valid : history.isValid offset = true) :
    ∃ number next after, history.getForAck offset = some (number,next,after) := by
  have counts := framed_valid framed valid
  have noted := framed_setAcks framed valid (show 0 ≤ (history.elements offset).numAcksSent + 1 by omega)
  unfold getForAck
  dsimp only
  split
  · obtain ⟨next,after,ran⟩ := remove_returns noted offset
    rw [ran]
    exact ⟨_,_,_,rfl⟩
  · exact ⟨_,_,_,rfl⟩

theorem evict_returns (window : Window history newest n) (enough : n + 1 < fuel) :
    ∃ after, evict newFirst fuel history = some after := by
  induction fuel generalizing history n with
  | zero => exact absurd enough (Nat.not_lt_zero _)
  | succ fuel ih =>
    unfold evict
    split
    · change ∃ after, evict newFirst fuel { history.cleared history.first with
        first := add (history.cleared history.first).first } = some after
      have emptied : ¬(history.cleared history.first).isValid (history.cleared history.first).first = true := by
        rw [cleared_first]
        exact fun valid => (cleared_valid.mp valid).2 rfl
      by_cases more : (history.cleared history.first).active.Nonempty
      · obtain ⟨positive,next⟩ := window_advance (window_cleared window) emptied more
        exact ih next (by omega)
      · have count : (history.cleared history.first).numActiveElements =
            (history.cleared history.first).active.card := cleared_count window.count
        have nothing : (history.cleared history.first).numActiveElements = 0 := by
          by_contra some_left
          exact more ((active_nonempty count).mp some_left)
        cases fuel with
        | zero => exact absurd enough (by omega)
        | succ fuel =>
          unfold evict
          rw [if_neg (fun again => again.1 nothing)]
          exact ⟨_,rfl⟩
    · exact ⟨_,rfl⟩

theorem insert_returns (kept : Kept history) (id : SequenceNumber) :
    ∃ fresh after, history.insert id = some (fresh,after) := by
  unfold DatagramHistoryList.insert
  dsimp only
  cases kept with
  | empty none_left =>
    rw [if_neg (fun holds => holds none_left)]
    exact ⟨_,_,rfl⟩
  | framed framed =>
    have size := framed.size
    split
    · split
      · have evicts : ∃ after, evict (id - 511) scanFuel history = some after :=
          evict_returns framed.toWindow (by unfold scanFuel; omega)
        obtain ⟨after,ran⟩ := evicts
        rw [ran]
        exact ⟨_,_,rfl⟩
      · split
        · exact ⟨_,_,rfl⟩
        · exact ⟨_,_,rfl⟩
    · exact ⟨_,_,rfl⟩

theorem ackWalk_returns (framed : Framed history newest n) (inside : i ≤ n) (enough : i < fuel) :
    ∃ acked after, ackWalk fuel (slot (behind newest i)) history = some (acked,after) := by
  induction fuel generalizing history n i with
  | zero => exact absurd enough (Nat.not_lt_zero i)
  | succ fuel ih =>
    unfold ackWalk
    split
    · exact ⟨_,_,rfl⟩
    · rename_i goes
      obtain ⟨notNewest,_⟩ := not_or.mp goes
      have size := framed.size
      have positive := newest_positive framed.toWindow notNewest
      have forward := add_behind newest positive
      split
      · rename_i valid
        obtain ⟨current,next,middle,visit⟩ := getForAck_returns framed valid
        obtain ⟨_,_,_,_,_,_,moves⟩ := getForAck_framed visit framed valid
        obtain ⟨_,m,bound,inner,place⟩ := moves notNewest
        have rest : ∃ acked after, ackWalk fuel next middle = some (acked,after) := by
          rcases place with ⟨same,rfl⟩ | ⟨oldest,shorter,rfl⟩
          · rw [forward]
            exact ih inner (by omega) (by omega)
          · have top : i = n := slot_behind_inj newest (by omega) size (oldest.trans framed.first)
            exact ih inner (Nat.le_refl m) (by omega)
        obtain ⟨acked,after,walk⟩ := rest
        rw [visit]
        simp only [Option.bind_eq_bind,Option.bind_some,walk]
        exact ⟨_,_,rfl⟩
      · rw [forward]
        exact ih framed (by omega) (by omega)

theorem writeAckHistory_returns (kept : Kept history) :
    ∃ frame lastToAck after, writeAckHistory history = some (frame,lastToAck,after) := by
  unfold writeAckHistory
  dsimp only
  split
  · exact ⟨_,_,_,rfl⟩
  · rename_i holds
    cases kept with
    | empty none_left => exact absurd none_left holds
    | framed framed =>
      obtain ⟨number,next,middle,visit⟩ := getForAck_returns framed framed.newestIn
      rw [visit]
      simp only [Option.bind_eq_bind,Option.bind_some]
      split
      · exact ⟨_,_,_,rfl⟩
      · rename_i apart
        obtain ⟨last,m,inner,start⟩ := walk_start visit framed apart
        have small := inner.size
        obtain ⟨acked,after,walk⟩ := ackWalk_returns inner (Nat.le_refl m) (show m < walkFuel by unfold walkFuel; omega)
        rw [←start] at walk
        rw [walk]
        simp only [Option.bind_some]
        split
        · exact ⟨_,_,_,rfl⟩
        · exact ⟨_,_,_,rfl⟩

end Returns

-- How many slots after the first one a slot comes.
def stepsFrom (first offset : Offset) : Nat := (offset.val + 512 - first.val) % 512

-- What the fields of a history say about the numbers in it.
structure Represents (history : DatagramHistoryList) : Prop where
  counted : history.numActiveElements = history.active.card
  congruent : ∀ offset, history.isValid offset = true → slot (history.numberAt offset) = offset
  ends : history.numActiveElements ≠ 0 →
    history.isValid history.first = true ∧ history.isValid history.lastIndex = true
  inRange : history.numActiveElements ≠ 0 → ∀ offset, history.isValid offset = true →
    stepsFrom history.first offset ≤ stepsFrom history.first history.lastIndex
  increasing : ∀ offset other, history.isValid offset = true → history.isValid other = true →
    stepsFrom history.first offset < stepsFrom history.first other →
    0 < sequenceNumberSequentialDistance (history.numberAt offset) (history.numberAt other) ∧
      sequenceNumberSequentialDistance (history.numberAt offset) (history.numberAt other) ≤ 511

section Represented
variable {history middle after : DatagramHistoryList} {newest newFirst id : SequenceNumber} {offset : Offset}

theorem stepsFrom_self (first : Offset) : stepsFrom first first = 0 := by
  have bound := first.isLt
  unfold stepsFrom
  omega

theorem stepsFrom_behind (newest : SequenceNumber) (size : n ≤ 511) (inside : k ≤ n) :
    stepsFrom (slot (behind newest n)) (slot (behind newest k)) = n - k := by
  have bound := newest.isLt
  unfold stepsFrom
  simp only [slot_val,behind_toNat newest (show n ≤ 65536 by omega),behind_toNat newest (show k ≤ 65536 by omega)]
  omega

theorem behind_apart (newest : SequenceNumber) (size : k ≤ 511) (order : j < k) :
    sequenceNumberSequentialDistance (behind newest k) (behind newest j) = k - j := by
  have bound := newest.isLt
  unfold sequenceNumberSequentialDistance
  simp only [BitVec.toNat_sub,behind_toNat newest (show k ≤ 65536 by omega),
    behind_toNat newest (show j ≤ 65536 by omega)]
  omega

theorem kept_represents (kept : Kept history) : Represents history := by
  cases kept with
  | empty none_left unused =>
    have none_valid := unused_slots unused
    refine ⟨none_left.trans unused.symm,?_,fun holds => absurd none_left holds,fun holds => absurd none_left holds,?_⟩
    · exact fun offset valid => absurd valid (none_valid offset)
    · exact fun offset other valid => absurd valid (none_valid offset)
  | framed framed =>
    rename_i newest n
    have size := framed.size
    refine ⟨framed.count,?_,fun _ => ⟨framed.oldest,framed.newestIn⟩,?_,?_⟩
    · intro offset valid
      obtain ⟨k,_,place,number⟩ := framed.within offset valid
      rw [number,place]
    · intro _ offset valid
      obtain ⟨k,inside,place,_⟩ := framed.within offset valid
      rw [framed.first,lastIndex_behind framed.toWindow,place,stepsFrom_behind newest size inside,stepsFrom_behind newest size (Nat.zero_le n)]
      omega
    · intro offset other valid there order
      obtain ⟨k,inside,place,number⟩ := framed.within offset valid
      obtain ⟨j,below,spot,value⟩ := framed.within other there
      rw [framed.first,place,spot,stepsFrom_behind newest size inside,stepsFrom_behind newest size below] at order
      rw [number,value,behind_apart newest (by omega) (by omega)]
      omega

-- An eviction that has not stopped at an empty slot is a clean one.
theorem cleanly_evicted (ran : evict newFirst fuel history = some after)
    (count : history.numActiveElements = history.active.card)
    (stopped : after.numActiveElements = 0 ∨ after.isValid after.first = true) : EvictsCleanly newFirst history := by
  induction fuel generalizing history with
  | zero => cases ran
  | succ fuel ih =>
    unfold evict at ran
    split at ran
    · rename_i older
      obtain ⟨_,older⟩ := older
      change evict newFirst fuel { history.cleared history.first with
        first := add (history.cleared history.first).first } = some after at ran
      have rest := ih ran (cleared_count count)
      have next : ∀ i, ahead { history.cleared history.first with
          first := add (history.cleared history.first).first } i = history.ahead (i + 1) :=
        ahead_next (congrArg add cleared_first)
      have moved : ∀ i, i + 1 < 512 → history.ahead (i + 1) ≠ history.first := by
        intro i bound same
        have zero := ahead_inj bound (by omega) (same.trans (ahead_zero history).symm)
        omega
      intro i bound empty earlier later
      cases i with
      | zero =>
        rw [ahead_zero]
        exact older
      | succ i =>
        obtain ⟨j,above,below,used⟩ := later
        have number := rest i (by omega)
        rw [next] at number
        change (¬(history.cleared history.first).isValid _ = true → _ → _ →
          seqLessThan ((history.cleared history.first).numberAt _) newFirst = true) at number
        rw [cleared_number] at number
        refine number (fun valid => empty (cleared_valid.mp valid).1) ?_ ⟨j - 1,by omega,by omega,?_⟩
        · intro k less valid
          rw [next] at valid ⊢
          change seqLessThan ((history.cleared history.first).numberAt _) newFirst = true
          rw [cleared_number]
          exact earlier (k + 1) (by omega) (cleared_valid.mp valid).1
        · rw [next,Nat.sub_add_cancel (by omega)]
          have apart := moved (j - 1) (by omega)
          rw [Nat.sub_add_cancel (by omega)] at apart
          exact cleared_valid.mpr ⟨used,apart⟩
    · rename_i stops
      cases Option.some.inj ran
      intro i bound empty earlier later
      obtain ⟨j,above,below,used⟩ := later
      have holds : after.numActiveElements ≠ 0 := (active_nonempty count).mpr ⟨_,mem_active.mpr used⟩
      have oldest := stopped.resolve_left holds
      have first := earlier 0
      rw [ahead_zero] at first
      cases i with
      | zero =>
        rw [ahead_zero] at empty
        exact absurd oldest empty
      | succ i => exact absurd ⟨holds,first (Nat.succ_pos i) oldest⟩ stops

-- A newer number after an eviction that stopped at an empty slot: the first slot
-- is empty, or it is taken by the newest number.
theorem unclean_append (window : Window middle newest m) (newer : seqLessThan newest id = true)
    (holds : middle.numActiveElements ≠ 0) (empty : ¬middle.isValid middle.first = true) :
    ¬Represents (middle.append id) := by
  intro represents
  obtain ⟨appended,_⟩ := append_elements middle id
  have first : (middle.append id).first = middle.first := by
    unfold append
    dsimp only
    rw [if_neg holds]
    rfl
  have more : (middle.append id).numActiveElements ≠ 0 := Nat.succ_ne_zero _
  have used := (represents.ends more).1
  rw [first] at used
  by_cases own : middle.first = slot id
  · obtain ⟨offset,present⟩ := (active_nonempty window.count).mp holds
    have valid := mem_active.mp present
    have ne : offset ≠ slot id := by
      intro same
      rw [same,←own] at valid
      exact empty valid
    obtain ⟨k,inside,_,number⟩ := window.within offset valid
    have stays : (middle.append id).elements offset = middle.elements offset := by rw [appended,store_other ne]
    have entry : (middle.append id).numberAt (slot id) = id := by
      unfold numberAt
      rw [appended,store_same]
    have spot : (middle.append id).numberAt offset = behind newest k := by
      unfold numberAt
      rw [stays]
      exact number
    have order : stepsFrom (middle.append id).first (middle.append id).first <
        stepsFrom (middle.append id).first offset := by
      have one := offset.isLt
      have two := (slot id).isLt
      have differ : offset.val ≠ (slot id).val := fun same => ne (Fin.ext same)
      rw [first,own,stepsFrom_self]
      unfold stepsFrom
      omega
    have near := represents.increasing _ offset (by rw [first]; exact used)
      (by unfold isValid; rw [stays]; exact valid) order
    rw [first,own,entry,spot] at near
    have size := window.size
    have ahead := (seqLessThan_iff _ _).mp newer
    unfold sequenceNumberSequentialDistance at near ahead
    simp only [BitVec.toNat_sub,behind_toNat newest (show k ≤ 65536 by omega)] at near ahead
    have := newest.isLt
    have := id.isLt
    omega
  · unfold isValid at used
    rw [appended,store_other own] at used
    exact empty used

-- A number that is older than the first element takes a slot outside the range.
theorem early_store (framed : Framed history newest n) (size : d ≤ 511) (early : n < d) :
    ¬Represents ({ history with numActiveElements := history.numActiveElements + 1 }.store
      (slot (behind newest d)) ⟨behind newest d,0⟩) := by
  intro represents
  have used : ({ history with numActiveElements := history.numActiveElements + 1 }.store
      (slot (behind newest d)) ⟨behind newest d,0⟩).isValid (slot (behind newest d)) = true := by
    simp [isValid]
  have within := represents.inRange (Nat.succ_ne_zero _) _ used
  change stepsFrom history.first _ ≤ stepsFrom history.first history.lastIndex at within
  rw [lastIndex_behind framed.toWindow,framed.first,stepsFrom_behind newest framed.size (Nat.zero_le n)] at within
  have bound := newest.isLt
  have short := framed.size
  unfold stepsFrom at within
  simp only [slot_val,behind_toNat newest (show n ≤ 65536 by omega),behind_toNat newest (show d ≤ 65536 by omega)] at within
  omega

theorem near_behind (near : sequenceNumberSequentialDistance id newest ≤ 511) :
    ∃ d, d ≤ 511 ∧ id = behind newest d := ⟨_,near,(behind_distance newest id).symm⟩

end Represented

-- A call on the history; `none` is a call that does not come back.
inductive RingCall where
  | insert (id : SequenceNumber)
  | getForAck (offset : Offset)
  | remove (offset : Offset)

def call (history : DatagramHistoryList) : RingCall → Option DatagramHistoryList
  | .insert id => (history.insert id).map fun (_,after) => after
  | .getForAck offset => (history.getForAck offset).map fun (_,_,after) => after
  | .remove offset => (history.remove offset).map fun (_,after) => after

def ringStep (state : Option DatagramHistoryList) (ringCall : RingCall) : Option DatagramHistoryList :=
  state.bind fun history => history.call ringCall

-- Inserts in order, acknowledgements of slots that are in use.
def Orderly (state : Option DatagramHistoryList) (ringCall : RingCall) : Prop :=
  ∀ history, state = some history → match ringCall with
    | .insert id => history.InOrder id
    | .getForAck offset => history.isValid offset = true
    | .remove _ => True

-- A number is newer than the newest one or less than a ring behind it.
def NearNewest (state : Option DatagramHistoryList) (ringCall : RingCall) : Prop :=
  ∀ history, state = some history → ∀ id, ringCall = .insert id → history.numActiveElements ≠ 0 →
    seqLessThan (history.numberAt history.lastIndex) id = true ∨
      sequenceNumberSequentialDistance id (history.numberAt history.lastIndex) ≤ 511

def SomeKept (state : Option DatagramHistoryList) : Prop := ∃ history, state = some history ∧ Kept history

def SomeRepresents (state : Option DatagramHistoryList) : Prop := ∃ history, state = some history ∧ Represents history

section Calls
variable {state : Option DatagramHistoryList} {ringCall : RingCall} {history after : DatagramHistoryList}
  {id : SequenceNumber} {offset : Offset}

theorem remove_kept (kept : Kept history) (offset : Offset) :
    ∃ next after, history.remove offset = some (next,after) ∧ Kept after := by
  cases kept with
  | empty none_left unused sent =>
    have same : history.cleared offset = history := by
      unfold cleared
      rw [if_neg (unused_slots unused offset)]
    refine ⟨history.last,{ history with first := history.last },?_,.empty none_left unused sent⟩
    rw [remove_cleared,same,if_pos none_left]
  | framed framed =>
    obtain ⟨next,after,ran⟩ := remove_returns framed offset
    exact ⟨next,after,ran,(remove_framed ran framed).2.2.1⟩

theorem orderly_kept (kept : SomeKept state) (orderly : Orderly state ringCall) : SomeKept (ringStep state ringCall) := by
  obtain ⟨history,rfl,kept⟩ := kept
  have allowed := orderly history rfl
  cases ringCall with
  | insert id =>
    obtain ⟨fresh,after,ran⟩ := insert_returns kept id
    refine ⟨after,by simp [ringStep,call,ran],?_⟩
    rcases insert_cases ran kept allowed with ⟨_,rfl,_⟩ | ⟨_,inserted⟩
    · exact kept
    · exact inserted.kept
  | getForAck offset =>
    cases kept with
    | empty _ unused => exact absurd allowed (unused_slots unused offset)
    | framed framed =>
      obtain ⟨number,next,after,ran⟩ := getForAck_returns framed allowed
      exact ⟨after,by simp [ringStep,call,ran],(getForAck_framed ran framed allowed).2.2.1⟩
  | remove offset =>
    obtain ⟨next,after,ran,kept⟩ := remove_kept kept offset
    exact ⟨after,by simp [ringStep,call,ran],kept⟩

theorem disorderly_insert (framed : Framed history newest n) (out : ¬history.InOrder id)
    (near : seqLessThan (history.numberAt history.lastIndex) id = true ∨
      sequenceNumberSequentialDistance id (history.numberAt history.lastIndex) ≤ 511)
    (ran : history.insert id = some (fresh,after)) : ¬Represents after := by
  have holds : history.numActiveElements ≠ 0 :=
    (active_nonempty framed.count).mpr ⟨_,mem_active.mpr framed.oldest⟩
  unfold DatagramHistoryList.insert at ran
  dsimp only at ran
  rw [if_pos holds] at ran
  unfold InOrder at out
  rw [last_number framed] at out near ran
  rw [first_number framed.toWindow framed.oldest] at out
  split at ran
  · rename_i newer
    obtain ⟨middle,evicts,same⟩ := Option.map_eq_some_iff.mp ran
    cases same
    obtain ⟨_,_,_,_,_,_,rest⟩ := evict_window evicts framed.toWindow
    have unclean : ¬(middle.numActiveElements = 0 ∨ middle.isValid middle.first = true) :=
      fun stopped => out fun _ => .inl ⟨newer,cleanly_evicted evicts framed.count stopped⟩
    obtain ⟨more,empty⟩ := not_or.mp unclean
    obtain ⟨m,_,window,_⟩ := rest.resolve_left more
    exact unclean_append window newer more empty
  · rename_i older
    obtain ⟨d,size,rfl⟩ := near_behind (near.resolve_left older)
    have early : n < d := by
      by_contra inside
      refine out fun _ => .inr ?_
      have short := framed.size
      have bound := newest.isLt
      unfold sequenceNumberSequentialDistance
      simp only [BitVec.toNat_sub,behind_toNat newest (show n ≤ 65536 by omega),
        behind_toNat newest (show d ≤ 65536 by omega)]
      omega
    have unused : ¬history.isValid (slot (behind newest d)) = true := by
      intro valid
      obtain ⟨k,inside,place,_⟩ := framed.within _ valid
      have short := framed.size
      have same := slot_behind_inj newest size (by omega) place
      omega
    rw [if_neg (fun present => unused present.2),if_neg unused] at ran
    cases Option.some.inj ran
    exact early_store framed size early

theorem disorderly_ack (counted : history.numActiveElements = history.active.card)
    (empty : ¬history.isValid offset = true)
    (ran : history.getForAck offset = some (number,next,after)) : ¬Represents after := by
  have unsent : (history.elements offset).numAcksSent = -1 := by
    by_contra used
    exact empty (isValid_iff.mpr used)
  unfold getForAck at ran
  rw [unsent] at ran
  cases Option.some.inj ran
  intro represents
  have counts := represents.counted
  change history.numActiveElements = (history.store offset ⟨history.numberAt offset,0⟩).active.card at counts
  have more : history.numActiveElements + 1 = (history.store offset ⟨history.numberAt offset,0⟩).active.card :=
    store_counts counted empty (by simp)
  omega

theorem disorderly_breaks (kept : SomeKept state) (near : NearNewest state ringCall) (out : ¬Orderly state ringCall) :
    ¬SomeRepresents (ringStep state ringCall) := by
  obtain ⟨history,rfl,kept⟩ := kept
  rintro ⟨after,ran,represents⟩
  refine out ?_
  rintro _ ⟨⟩
  by_contra refused
  cases ringCall with
  | insert id =>
    obtain ⟨⟨fresh,final⟩,inserted,same⟩ := Option.map_eq_some_iff.mp ran
    cases same
    cases kept with
    | empty none_left => exact refused fun holds => absurd none_left holds
    | framed framed =>
      have holds : history.numActiveElements ≠ 0 :=
        (active_nonempty framed.count).mpr ⟨_,mem_active.mpr framed.oldest⟩
      exact disorderly_insert framed refused (near history rfl id rfl holds) inserted represents
  | getForAck offset =>
    obtain ⟨⟨number,next,final⟩,acked,same⟩ := Option.map_eq_some_iff.mp ran
    cases same
    cases kept with
    | empty none_left unused => exact disorderly_ack (none_left.trans unused.symm) refused acked represents
    | framed framed => exact disorderly_ack framed.count refused acked represents
  | remove offset => exact refused trivial

end Calls

theorem history_representation (calls : List RingCall) :
    (StateRuns.EachAction ringStep (some DatagramHistoryList.new) calls Orderly →
      ∀ state, StateRuns.Reached ringStep (some DatagramHistoryList.new) calls state → SomeRepresents state) ∧
    (StateRuns.EachAction ringStep (some DatagramHistoryList.new) calls NearNewest →
      ((∀ state, StateRuns.Reached ringStep (some DatagramHistoryList.new) calls state → SomeRepresents state) ↔
        StateRuns.EachAction ringStep (some DatagramHistoryList.new) calls Orderly)) := by
  have sound : ∀ {state}, SomeKept state → SomeRepresents state := by
    rintro state ⟨history,rfl,kept⟩
    exact ⟨history,rfl,kept_represents kept⟩
  have start : SomeKept (some DatagramHistoryList.new) := ⟨_,rfl,new_kept⟩
  constructor
  · intro orderly state reached
    exact sound (StateRuns.reached_keeps orderly_kept start orderly reached)
  · exact StateRuns.reached_iff_given orderly_kept sound disorderly_breaks start

-- An old number is counted and stored, but the first slot stays where it is.
theorem early_number_outside : ¬∀ calls,
    StateRuns.EachAction ringStep (some DatagramHistoryList.new) calls NearNewest →
      ∀ state, StateRuns.Reached ringStep (some DatagramHistoryList.new) calls state → SomeRepresents state := by
  intro always
  have near : StateRuns.EachAction ringStep (some DatagramHistoryList.new) [.insert 10,.insert 5] NearNewest := by
    refine StateRuns.each_cons.mpr ⟨?_,StateRuns.each_cons.mpr ⟨?_,StateRuns.each_nil⟩⟩
    · rintro history ⟨⟩ id _ holds
      exact absurd rfl holds
    · rintro history ⟨⟩ id ⟨⟩ _
      exact .inr (by decide)
  obtain ⟨history,ran,represents⟩ := always _ near _ ⟨[.insert 10,.insert 5],[],rfl,rfl⟩
  cases ran
  exact absurd (represents.inRange (by decide) 5 (by decide)) (by decide)

end DatagramHistoryList
end NwNetwork.Carrier
