import NwNetwork.CarrierDuplicates
import NwNetwork.CarrierHistoryRepresentation

namespace NwNetwork.Carrier
open WireReader Serialize ByteBits

-- The sender drops what the history has, and sends none of it again.
def Acknowledges (ackData : AckData) (history : DatagramHistoryList) : Prop :=
  ∀ (sendDatagrams : List DatagramData), ∀ dgram ∈ sendDatagrams,
    (∃ offset, history.isValid offset = true ∧ history.numberAt offset = dgram.sequenceNumber) →
      dgram ∉ (ConnectionState.applyAckDataToSendQueue sendDatagrams ackData).1 ∧
      dgram.sequenceNumber ∉ (ConnectionState.applyAckDataToSendQueue sendDatagrams ackData).2

theorem not_nacked (acked : AckData.isAcked ackData seq = true) : AckData.isNacked ackData seq = false := by
  cases ackData with
  | keepAlive => cases acked
  | range firstToAck lastToAck => simp [AckData.isNacked,acked]
  | bits lastToAck historyBits => simp [AckData.isNacked,acked]

theorem acknowledges_iff (ackData : AckData) (history : DatagramHistoryList) : Acknowledges ackData history ↔
    ∀ offset, history.isValid offset = true → ackData.isAcked (history.numberAt offset) = true := by
  constructor
  · intro all offset valid
    have sent := all [DatagramData.new (history.numberAt offset) 0] _ List.mem_cons_self ⟨offset,valid,rfl⟩
    by_contra missing
    exact sent.1 (List.mem_filter.mpr ⟨List.mem_cons_self,by simpa [DatagramData.new] using missing⟩)
  · rintro all sendDatagrams dgram present ⟨offset,valid,number⟩
    have acked := all offset valid
    rw [number] at acked
    constructor
    · intro kept
      have missing := (List.mem_filter.mp kept).2
      rw [acked] at missing
      cases missing
    · intro nacked
      have asked := (List.mem_filter.mp nacked).2
      rw [not_nacked acked] at asked
      cases asked

section Bits

theorem setBit_sets (historyBits : Bytes) (i j : Nat) (room : i / 8 < historyBits.length)
    (set : bitSet historyBits i = true ∨ i = j) : bitSet (setBit historyBits j) i = true := by
  change hasBit (historyBits.getD (i / 8) 0) (i % 8) = true ∨ i = j at set
  change hasBit ((setBit historyBits j).getD (i / 8) 0) (i % 8) = true
  unfold setBit
  rw [List.getD_eq_getElem?_getD,List.getElem?_modify]
  rw [List.getD_eq_getElem?_getD,List.getElem?_eq_getElem room] at set
  rw [List.getElem?_eq_getElem room]
  by_cases byte : j / 8 = i / 8
  · simp only [if_pos byte,Option.map_eq_map,Option.map_some,Option.getD_some] at set ⊢
    rw [hasBit_or,hasBit_one (Nat.mod_lt _ (by decide)) (Nat.mod_lt _ (by decide)),Bool.or_eq_true,decide_eq_true_eq]
    rcases set with old | rfl
    · exact .inl old
    · exact .inr rfl
  · simp only [if_neg byte,Option.map_eq_map,Option.map_some,Option.getD_some] at set ⊢
    rcases set with old | rfl
    · exact old
    · exact absurd rfl byte

theorem markAcked_sets (lastToAck : SequenceNumber) (acked : List SequenceNumber) (historyBits : Bytes) (i : Nat)
    (room : i / 8 < historyBits.length)
    (set : bitSet historyBits i = true ∨ ∃ current ∈ acked, sequenceNumberSequentialDistance current lastToAck = i + 1) :
    bitSet (acked.foldl (markAcked lastToAck) historyBits) i = true := by
  induction acked generalizing historyBits with
  | nil =>
    rcases set with old | ⟨current,present,_⟩
    · exact old
    · cases present
  | cons current acked ih =>
    have size : (markAcked lastToAck historyBits current).length = historyBits.length :=
      markAcked_length lastToAck [current] historyBits
    have here : bitSet historyBits i = true ∨ sequenceNumberSequentialDistance current lastToAck = i + 1 →
        bitSet (markAcked lastToAck historyBits current) i = true := by
      intro either
      unfold markAcked
      dsimp only
      split
      · exact setBit_sets historyBits i _ room (either.imp id fun distance => by omega)
      · exact either.resolve_right fun distance => by omega
    apply ih _ (by rw [size]; exact room)
    rcases set with old | ⟨other,present,distance⟩
    · exact .inl (here (.inl old))
    · rcases List.mem_cons.mp present with rfl | later
      · exact .inl (here (.inr distance))
      · exact .inr ⟨other,later,distance⟩

end Bits

namespace DatagramHistoryList
variable {history middle after : DatagramHistoryList} {newest seq : SequenceNumber} {acked : List SequenceNumber}

theorem slot_after (newest : SequenceNumber) : slot (newest + 1) = slot (behind newest 511) := by
  apply Fin.ext
  have bound := newest.isLt
  simp only [slot_val,behind_toNat newest (show 511 ≤ 65536 by omega),BitVec.toNat_add]
  simp
  omega

-- A visit gives the number of its element and goes on to an index with nothing in
-- between; what is still to come stays as it was.
theorem visit_next (visit : history.getForAck (slot (behind newest i)) = some (number,next,middle))
    (framed : Framed history newest n) (inside : i ≤ n) (positive : 0 < i)
    (valid : history.isValid (slot (behind newest i)) = true) :
    number = behind newest i ∧ ∃ m j, Framed middle newest m ∧ j < i ∧ j ≤ m ∧ next = slot (behind newest j) ∧
      (∀ k, k < i → (middle.isValid (slot (behind newest k)) = true ↔
        history.isValid (slot (behind newest k)) = true)) ∧
      ∀ k, j < k → k < i → ¬history.isValid (slot (behind newest k)) = true := by
  have size := framed.size
  have notNewest : slot (behind newest i) ≠ history.lastIndex := by
    intro equal
    have zero := slot_behind_inj newest (by omega) (by omega) (equal.trans (lastIndex_behind framed.toWindow))
    omega
  obtain ⟨rfl,_,_,_,untouched,_,moves⟩ := getForAck_framed visit framed valid
  obtain ⟨_,m,bound,inner,place⟩ := moves notNewest
  have here : history.numberAt (slot (behind newest i)) = behind newest i := by
    obtain ⟨k,below,spot,value⟩ := framed.within _ valid
    rw [value,slot_behind_inj newest (by omega) (by omega) spot]
  have same : ∀ k, k < i → (middle.isValid (slot (behind newest k)) = true ↔
      history.isValid (slot (behind newest k)) = true) := by
    intro k less
    have differs : slot (behind newest k) ≠ slot (behind newest i) := by
      intro equal
      have twice := slot_behind_inj newest (by omega) (by omega) equal
      omega
    unfold isValid
    rw [untouched _ differs]
  refine ⟨here,m,?_⟩
  rcases place with ⟨equal,ahead⟩ | ⟨oldest,shorter,ahead⟩
  · refine ⟨i - 1,inner,by omega,by omega,?_,same,fun k more less => by omega⟩
    rw [ahead,add_behind newest positive]
  · have top : i = n := slot_behind_inj newest (by omega) size (oldest.trans framed.first)
    refine ⟨m,inner,by omega,Nat.le_refl m,ahead,same,?_⟩
    intro k more less used
    obtain ⟨j,below,spot,_⟩ := inner.within _ ((same k less).mpr used)
    have equal := slot_behind_inj newest (by omega) (by omega) spot
    omega

-- The walk visits all elements but the newest one, except where it starts on the
-- slot after the newest one: there it stops at once.
theorem ackWalk_numbers (ran : ackWalk fuel (slot (behind newest i)) history = some (acked,after))
    (framed : Framed history newest n) (inside : i ≤ n) (number : SequenceNumber) : number ∈ acked ↔
      i ≠ 511 ∧ ∃ k, 0 < k ∧ k ≤ i ∧ history.isValid (slot (behind newest k)) = true ∧ number = behind newest k := by
  induction fuel generalizing history n i acked with
  | zero => cases ran
  | succ fuel ih =>
    have size := framed.size
    unfold ackWalk at ran
    split at ran
    · rename_i stops
      cases Option.some.inj ran
      refine ⟨fun present => absurd present List.not_mem_nil,?_⟩
      rintro ⟨short,k,positive,bound,_⟩
      rcases stops with newest_slot | end_slot
      · have zero := slot_behind_inj newest (by omega) (by omega) (newest_slot.trans (lastIndex_behind framed.toWindow))
        omega
      · rw [framed.last,slot_after] at end_slot
        exact absurd (slot_behind_inj newest (by omega) (by omega) end_slot) short
    · rename_i goes
      obtain ⟨notNewest,notEnd⟩ := not_or.mp goes
      have short : i ≠ 511 := by
        rintro rfl
        exact notEnd (framed.last.trans (slot_after newest)).symm
      have positive := newest_positive framed.toWindow notNewest
      have forward := add_behind newest positive
      split at ran
      · rename_i valid
        obtain ⟨⟨current,next,middle⟩,visit,ran⟩ := Option.bind_eq_some_iff.mp ran
        obtain ⟨⟨others,final⟩,walk,ran⟩ := Option.bind_eq_some_iff.mp ran
        cases Option.some.inj ran
        obtain ⟨rfl,m,j,inner,earlier,within,rfl,same,gap⟩ := visit_next visit framed inside positive valid
        rw [List.mem_cons,ih walk inner within]
        constructor
        · rintro (rfl | ⟨_,k,more,less,used,rfl⟩)
          · exact ⟨short,i,positive,Nat.le_refl i,valid,rfl⟩
          · exact ⟨short,k,more,by omega,(same k (by omega)).mp used,rfl⟩
        · rintro ⟨_,k,more,less,used,rfl⟩
          rcases Nat.lt_or_eq_of_le less with below | rfl
          · have inner_bound : k ≤ j := by
              by_contra beyond
              exact gap k (by omega) below used
            exact .inr ⟨by omega,k,more,inner_bound,(same k below).mpr used,rfl⟩
          · exact .inl rfl
      · rename_i empty
        rw [forward] at ran
        rw [ih ran framed (by omega)]
        constructor
        · rintro ⟨_,k,more,less,used,rfl⟩
          exact ⟨short,k,more,by omega,used,rfl⟩
        · rintro ⟨_,k,more,less,used,rfl⟩
          have below : k ≠ i := by
            rintro rfl
            exact empty used
          exact ⟨by omega,k,more,by omega,used,rfl⟩

theorem advanceFirst_elements (ran : advanceFirst fuel history = some after) : after.elements = history.elements := by
  induction fuel generalizing history with
  | zero => cases ran
  | succ fuel ih =>
    unfold advanceFirst at ran
    split at ran
    · cases Option.some.inj ran
      rfl
    · have same := ih ran
      exact same

theorem retreatLast_elements (ran : retreatLast fuel history = some after) : after.elements = history.elements := by
  induction fuel generalizing history with
  | zero => cases ran
  | succ fuel ih =>
    unfold retreatLast at ran
    split at ran
    · cases Option.some.inj ran
      rfl
    · have same := ih ran
      exact same

theorem remove_gone (ran : history.remove offset = some (next,after)) : ¬after.isValid offset = true := by
  have gone : ¬(history.cleared offset).isValid offset = true := fun valid => (cleared_valid.mp valid).2 rfl
  have elements : after.elements = (history.cleared offset).elements := by
    rw [remove_cleared] at ran
    split at ran
    · cases Option.some.inj ran
      rfl
    · split at ran
      · obtain ⟨moved,advance,same⟩ := Option.map_eq_some_iff.mp ran
        cases same
        exact advanceFirst_elements advance
      · split at ran
        · obtain ⟨moved,retreat,same⟩ := Option.map_eq_some_iff.mp ran
          cases same
          exact retreatLast_elements retreat
        · cases Option.some.inj ran
          rfl
  rw [valid_same elements]
  exact gone

theorem third_ack_gone (ran : history.getForAck offset = some (number,next,after))
    (third : ¬(history.elements offset).numAcksSent + 1 < maxNumAcks) : ¬after.isValid offset = true := by
  unfold getForAck at ran
  dsimp only at ran
  rw [if_pos (by omega)] at ran
  obtain ⟨⟨place,moved⟩,removed,same⟩ := Option.map_eq_some_iff.mp ran
  cases same
  exact remove_gone removed

-- A frame tells everything when one number is enough, when it is a range without
-- gaps, or when the walk for the bits goes from the first element to the newest
-- one: the ring is not spanned as a whole, and the newest element stays.
def TellsAll (history : DatagramHistoryList) : Prop :=
  history.numActiveElements = 0 ∨
  sequenceNumberSequentialDistance (history.numberAt history.first) (history.numberAt history.lastIndex) = 0 ∨
  sequenceNumberSequentialDistance (history.numberAt history.first) (history.numberAt history.lastIndex) =
    (history.numActiveElements - 1) % 65536 ∨
  history.first ≠ history.last ∧ (history.elements history.lastIndex).numAcksSent + 1 < maxNumAcks

theorem window_distance (framed : Framed history newest n) :
    sequenceNumberSequentialDistance (history.numberAt history.first) newest = n := by
  rw [first_number framed.toWindow framed.oldest]
  have size := framed.size
  have bound := newest.isLt
  unfold sequenceNumberSequentialDistance
  simp only [BitVec.toNat_sub,behind_toNat newest (show n ≤ 65536 by omega)]
  omega

theorem range_tells (framed : Framed history newest n) (apart : n ≠ 0) (valid : history.isValid offset = true) :
    AckData.isAcked (.range (history.numberAt history.first) newest) (history.numberAt offset) = true := by
  obtain ⟨k,inside,_,number⟩ := framed.within offset valid
  have size := framed.size
  have bound := newest.isLt
  have first := first_number framed.toWindow framed.oldest
  have ends : behind newest n ≠ newest := by
    intro same
    have distance := window_distance framed
    rw [first,same,(distance_zero_iff _ _).mpr rfl] at distance
    exact apart distance.symm
  rw [first,number]
  dsimp only [AckData.isAcked]
  rw [if_neg ends]
  simp only [Bool.or_eq_true,beq_iff_eq,Bool.and_eq_true,seqLessThan_iff]
  rcases Nat.eq_zero_or_pos k with rfl | positive
  · rw [behind_zero]
    exact .inl (.inr rfl)
  · rcases Nat.lt_or_eq_of_le inside with less | rfl
    · refine .inr ⟨?_,?_⟩
      · rw [behind_apart newest size less]
        omega
      · have near := behind_apart newest (show k ≤ 511 by omega) positive
        rw [behind_zero] at near
        rw [near]
        omega
    · exact .inl (.inl rfl)

theorem bits_tell (framed : Framed history newest n) (valid : history.isValid offset = true) :
    AckData.isAcked (.bits newest (acked.foldl (markAcked newest) (List.replicate (min ((n + 7) / 8) maxNumBytes) 0)))
      (history.numberAt offset) = true ↔ history.numberAt offset = newest ∨ history.numberAt offset ∈ acked := by
  have size := framed.size
  constructor
  · intro acks
    rcases bits_acked acks with same | ⟨current,present,distance⟩
    · exact .inl same
    · rw [←distance_inj distance]
      exact .inr present
  · intro told
    obtain ⟨k,inside,_,number⟩ := framed.within offset valid
    dsimp only [AckData.isAcked]
    split
    · rfl
    · rename_i differs
      have positive : 0 < k := by
        rcases Nat.eq_zero_or_pos k with rfl | positive
        · rw [number,behind_zero] at differs
          exact absurd rfl differs
        · exact positive
      have distance : sequenceNumberSequentialDistance (history.numberAt offset) newest = k := by
        have near := behind_apart newest (show k ≤ 511 by omega) positive
        rw [behind_zero] at near
        rw [number,near,Nat.sub_zero]
      have bytes : (acked.foldl (markAcked newest) (List.replicate (min ((n + 7) / 8) maxNumBytes) 0)).length =
          min ((n + 7) / 8) maxNumBytes := by rw [markAcked_length,List.length_replicate]
      have enough : k ≤ min ((n + 7) / 8) maxNumBytes * 8 := by
        unfold maxNumBytes
        omega
      have older : seqLessThan (history.numberAt offset) newest = true := by
        rw [seqLessThan_iff,distance]
        omega
      rw [if_pos older,distance,bytes,if_neg (by omega)]
      refine markAcked_sets newest acked _ (k - 1) ?_ (.inr ⟨_,told.resolve_left differs,by omega⟩)
      rw [List.length_replicate]
      omega

-- An element that the walk for the bits does not visit.
theorem bits_miss (visit : history.getForAck history.lastIndex = some (number,next,middle))
    (walk : ackWalk walkFuel history.first middle = some (acked,after)) (framed : Framed history newest n)
    (apart : sequenceNumberSequentialDistance (history.numberAt history.first) number ≠ 0)
    (stays : ¬(history.first ≠ history.last ∧ (history.elements history.lastIndex).numAcksSent + 1 < maxNumAcks)) :
    ∃ offset, history.isValid offset = true ∧ history.numberAt offset ≠ newest ∧ history.numberAt offset ∉ acked := by
  obtain ⟨same,shrinks,_,_,_,once,_⟩ := getForAck_framed visit framed framed.newestIn
  have size := framed.size
  rw [last_number framed] at same
  subst same
  by_cases few : (history.elements history.lastIndex).numAcksSent + 1 < maxNumAcks
  · have whole : history.first = history.last := by
      by_contra differs
      exact stays ⟨differs,few⟩
    have all : n = 511 := by
      apply slot_behind_inj number size (by omega)
      rw [←framed.first,whole,framed.last,slot_after]
    obtain ⟨_,_,_,inner⟩ := once few
    rw [framed.first] at walk
    have first := first_number framed.toWindow framed.oldest
    refine ⟨history.first,framed.oldest,?_,?_⟩
    · intro equal
      exact apart ((distance_zero_iff _ _).mpr equal.symm)
    · rw [ackWalk_numbers walk inner (Nat.le_refl n)]
      exact fun visited => visited.1 all
  · obtain ⟨last,m,inner,start⟩ := walk_start visit framed apart
    have gone := third_ack_gone visit few
    have used := shrinks.valid _ inner.newestIn
    have value : history.numberAt middle.lastIndex = last := (shrinks.numbers _).symm.trans (last_number inner)
    rw [start] at walk
    refine ⟨middle.lastIndex,used,?_,?_⟩
    · rw [value]
      rintro rfl
      have place : middle.lastIndex = history.lastIndex :=
        (window_lastIndex inner.toWindow).trans (window_lastIndex framed.toWindow).symm
      exact gone (place ▸ inner.newestIn)
    · rw [value,ackWalk_numbers walk inner (Nat.le_refl m)]
      rintro ⟨_,k,positive,bound,_,equal⟩
      have small := inner.size
      have zero : 0 = k := by
        apply slot_behind_inj last (Nat.zero_le _) (by omega)
        rw [behind_zero,←equal]
      omega

theorem frame_tells (kept : Kept history) (ran : writeAckHistory history = some (frame,lastToAck,after)) :
    ∃ ackData, readAckDataFrame frame = some ackData ∧ (Acknowledges ackData history ↔ TellsAll history) := by
  rcases writeAckHistory_cases ran with ⟨none_left,rfl,_,_⟩ | ⟨holds,newest,next,middle,visit,_,rest⟩
  · refine ⟨.keepAlive,keepAlive_frame_reads,?_⟩
    rw [acknowledges_iff]
    exact ⟨fun _ => .inl none_left,fun _ offset valid => absurd none_left (kept_holds kept valid)⟩
  · cases kept with
    | empty none_left => exact absurd none_left holds
    | framed framed =>
      rename_i last n
      obtain ⟨number,_,_,_,others,once,_⟩ := getForAck_framed visit framed framed.newestIn
      rw [last_number framed] at number
      subst number
      have distance := window_distance framed
      rcases rest with ⟨single,rfl,_⟩ | ⟨acked,walk,apart,⟨all,rfl⟩ | ⟨gaps,rfl⟩⟩
      · refine ⟨_,single_frame_reads _,?_⟩
        rw [acknowledges_iff]
        refine ⟨fun _ => .inr (.inl (by rw [last_number framed]; exact single)),?_⟩
        intro _ offset valid
        obtain ⟨k,inside,_,value⟩ := framed.within offset valid
        have zero : k = 0 := by omega
        rw [value,zero,behind_zero]
        simp [AckData.isAcked]
      · refine ⟨_,range_frame_reads _ _,?_⟩
        rw [acknowledges_iff]
        refine ⟨fun _ => .inr (.inr (.inl (by rw [last_number framed]; exact all))),?_⟩
        intro _ offset valid
        exact range_tells framed (by omega) valid
      · have size := markAcked_length newest acked (List.replicate (min ((n + 7) / 8) maxNumBytes) 0)
        rw [List.length_replicate] at size
        have read := bits_frame_reads newest _ (Nat.le_trans (Nat.le_of_eq size) (Nat.min_le_right _ _))
        rw [size] at read
        rw [distance]
        refine ⟨_,read,?_⟩
        rw [acknowledges_iff]
        constructor
        · intro told
          by_contra not_all
          have stays := fun last => not_all (.inr (.inr (.inr last)))
          obtain ⟨offset,valid,differs,missed⟩ := bits_miss visit walk framed apart stays
          exact ((bits_tell framed valid).mp (told offset valid)).elim differs missed
        · intro tells offset valid
          rcases tells with none_left | alone | range | ⟨short,few⟩
          · exact absurd none_left holds
          · rw [last_number framed] at alone
            exact absurd alone apart
          · rw [last_number framed] at range
            exact absurd range gaps
          · rw [bits_tell framed valid]
            obtain ⟨_,kept_newest,_,inner⟩ := once few
            obtain ⟨k,inside,place,value⟩ := framed.within offset valid
            have whole : n ≠ 511 := by
              rintro rfl
              exact short (framed.first.trans ((slot_after newest).symm.trans framed.last.symm))
            rw [framed.first] at walk
            rw [ackWalk_numbers walk inner (Nat.le_refl n),value]
            rcases Nat.eq_zero_or_pos k with rfl | positive
            · exact .inl (behind_zero newest)
            · refine .inr ⟨whole,k,positive,inside,?_,rfl⟩
              rw [←place]
              by_cases own : offset = history.lastIndex
              · rw [own]
                exact kept_newest
              · unfold isValid
                rw [others offset own]
                exact valid

end DatagramHistoryList

-- While no frame has been written, nothing has been acknowledged.
theorem inserts_unsent (run : HistoryRun history steps final) (ordered : ∀ step ∈ steps, ArrivesInOrder step)
    (kept : history.Kept) (silent : framesWritten steps = 0)
    (unsent : ∀ offset, history.isValid offset = true → (history.elements offset).numAcksSent = 0) :
    ∀ offset, final.isValid offset = true → (final.elements offset).numAcksSent = 0 := by
  induction run with
  | stop => exact unsent
  | insert ran rest ih =>
    rename_i fresh middle steps final history seq
    have later := fun step present => ordered step (List.mem_cons_of_mem _ present)
    rcases DatagramHistoryList.insert_cases ran kept (ordered _ List.mem_cons_self) with ⟨_,rfl,_⟩ | ⟨_,inserted⟩
    · exact ih later kept silent unsent
    · apply ih later inserted.kept silent
      intro offset valid
      rcases inserted.new offset valid with rfl | ⟨before,same⟩
      · rw [inserted.entry]
      · rw [same]
        exact unsent offset before
  | writeAck ran rest ih =>
    unfold framesWritten at silent
    rw [List.countP_cons_of_pos rfl] at silent
    cases silent

-- Then only a ring that is spanned as a whole and has gaps is told in part.
theorem unsent_tells {history : DatagramHistoryList} (kept : history.Kept)
    (unsent : ∀ offset, history.isValid offset = true → (history.elements offset).numAcksSent = 0) :
    history.TellsAll ↔
      ¬(history.first = history.last ∧ history.numActiveElements ≠ 0 ∧ history.numActiveElements ≠ 512) := by
  unfold DatagramHistoryList.TellsAll
  cases kept with
  | empty none_left => exact ⟨fun _ whole => whole.2.1 none_left,fun _ => .inl none_left⟩
  | framed framed =>
    rename_i newest n
    have size := framed.size
    have early := unsent _ framed.newestIn
    have some_active : history.active.card ≤ 512 := by simpa using Finset.card_le_univ history.active
    have count := framed.count
    rw [DatagramHistoryList.last_number framed,DatagramHistoryList.window_distance framed,early]
    constructor
    · rintro tells ⟨whole,holds,gaps⟩
      have all : n = 511 := by
        apply DatagramHistoryList.slot_behind_inj newest size (by omega)
        rw [←framed.first,whole,framed.last,DatagramHistoryList.slot_after]
      rcases tells with none_left | alone | range | ⟨short,_⟩
      · exact holds none_left
      · omega
      · omega
      · exact short whole
    · intro partly
      by_cases whole : history.first = history.last
      · have all : n = 511 := by
          apply DatagramHistoryList.slot_behind_inj newest size (by omega)
          rw [←framed.first,whole,framed.last,DatagramHistoryList.slot_after]
        by_cases none_left : history.numActiveElements = 0
        · exact .inl none_left
        · have full : history.numActiveElements = 512 := by
            by_contra gaps
            exact partly ⟨whole,none_left,gaps⟩
          exact .inr (.inr (.inl (by omega)))
      · exact .inr (.inr (.inr ⟨whole,by decide⟩))

theorem ack_completeness (run : HistoryRun DatagramHistoryList.new steps history)
    (ordered : ∀ step ∈ steps, ArrivesInOrder step) :
    (∃ frame lastToAck after ackData, writeAckHistory history = some (frame,lastToAck,after) ∧
      readAckDataFrame frame = some ackData ∧ (Acknowledges ackData history ↔ history.TellsAll)) ∧
    (framesWritten steps = 0 → (history.TellsAll ↔
      ¬(history.first = history.last ∧ history.numActiveElements ≠ 0 ∧ history.numActiveElements ≠ 512))) := by
  have nothing_valid : ∀ offset, ¬DatagramHistoryList.new.isValid offset = true := by
    intro offset valid
    simp [DatagramHistoryList.isValid,DatagramHistoryList.new] at valid
  have nothing_yet : ∀ offset, DatagramHistoryList.new.isValid offset = true →
      DatagramHistoryList.new.numberAt offset ∈ ([] : List SequenceNumber) :=
    fun offset valid => absurd valid (nothing_valid offset)
  obtain ⟨kept,_⟩ := DatagramHistoryList.run_kept run ordered DatagramHistoryList.new_kept nothing_yet
  obtain ⟨frame,lastToAck,after,ran⟩ := DatagramHistoryList.writeAckHistory_returns kept
  obtain ⟨ackData,read,tells⟩ := DatagramHistoryList.frame_tells kept ran
  refine ⟨⟨frame,lastToAck,after,ackData,ran,read,tells⟩,?_⟩
  intro silent
  exact unsent_tells kept (inserts_unsent run ordered DatagramHistoryList.new_kept silent
    fun offset valid => absurd valid (nothing_valid offset))

-- Three numbers with gaps, the middle one late.
theorem late_middle_arrives : ∃ steps history, HistoryRun DatagramHistoryList.new steps history ∧
    steps.map (·.2) = [.insert 5 true,.insert 9 true,.insert 7 true] ∧
    (∀ step ∈ steps, ArrivesInOrder step) ∧ history.TellsAll := by
  refine ⟨_,_,.insert rfl (.insert rfl (.insert rfl .stop)),rfl,?_,.inr (.inr (.inr ⟨by decide,by decide⟩))⟩
  intro step present
  simp only [List.mem_cons,List.not_mem_nil,or_false] at present
  rcases present with rfl | rfl | rfl
  · exact fun holds => absurd rfl holds
  · refine fun _ => .inl ⟨rfl,?_⟩
    intro i _ empty earlier _
    cases i with
    | zero => exact absurd rfl empty
    | succ i => exact absurd (earlier 0 (Nat.succ_pos i) rfl) (by decide)
  · exact fun _ => .inr (by decide)

theorem ack_completeness_lateMiddle : ∃ steps history frame lastToAck after ackData,
    HistoryRun DatagramHistoryList.new steps history ∧
      steps.map (·.2) = [.insert 5 true,.insert 9 true,.insert 7 true] ∧
      writeAckHistory history = some (frame,lastToAck,after) ∧
      readAckDataFrame frame = some ackData ∧ Acknowledges ackData history := by
  obtain ⟨steps,history,run,inserts,ordered,all⟩ := late_middle_arrives
  obtain ⟨⟨frame,lastToAck,after,ackData,ran,read,tells⟩,_⟩ := ack_completeness run ordered
  exact ⟨steps,history,frame,lastToAck,after,ackData,run,inserts,ran,read,tells.mpr all⟩

def WithinRing (ids : List SequenceNumber) : Prop :=
  ∀ a ∈ ids, ∀ b ∈ ids, sequenceNumberSequentialDistance a b ≤ 511 ∨ sequenceNumberSequentialDistance b a ≤ 511

-- A number older than the first element is told as missing.
theorem early_number_nacked : ¬∀ (ids : List SequenceNumber) (steps : List (DatagramHistoryList × HistoryEvent))
    (history after : DatagramHistoryList) (frame : Bytes) (lastToAck : Option SequenceNumber) (ackData : AckData),
    WithinRing ids → performAll DatagramHistoryList.new (ids.map .insert) = some (steps,history) →
    writeAckHistory history = some (frame,lastToAck,after) → readAckDataFrame frame = some ackData →
    Acknowledges ackData history := by
  intro always
  have made : (performAll DatagramHistoryList.new [.insert 10,.insert 5]).bind (fun run =>
      (writeAckHistory run.2).map fun written => (written.1,run.2.isValid 5,run.2.numberAt 5)) =
        some ([0,0,10],true,5) := by decide
  obtain ⟨⟨steps,history⟩,run,made⟩ := Option.bind_eq_some_iff.mp made
  obtain ⟨⟨frame,lastToAck,after⟩,written,same⟩ := Option.map_eq_some_iff.mp made
  simp only [Prod.mk.injEq] at same
  obtain ⟨bytes,valid,number⟩ := same
  rw [bytes] at written
  have told := always [10,5] steps history after _ lastToAck (.range 10 10) (by simp [WithinRing,sequenceNumberSequentialDistance]) run written rfl
  have acked := (acknowledges_iff _ _).mp told 5 valid
  rw [number] at acked
  exact absurd acked (by decide)

end NwNetwork.Carrier
