import NwNetwork.ByteBits
import NwNetwork.CarrierHistoryWindow
import NwNetwork.CarrierConnectionState

namespace NwNetwork.Carrier
open WireReader Serialize ByteBits

-- What a receiver does to its history: a datagram arrives and is accepted or
-- refused, or an acknowledgement frame is written.
inductive HistoryEvent where
  | insert (id : SequenceNumber) (fresh : Bool)
  | writeAckHistory (frame : Bytes)
  deriving DecidableEq

-- A run with the history before every event.
inductive HistoryRun : DatagramHistoryList → List (DatagramHistoryList × HistoryEvent) → DatagramHistoryList → Prop where
  | stop : HistoryRun history [] history
  | insert : history.insert seq = some (fresh,middle) → HistoryRun middle steps final →
      HistoryRun history ((history,.insert seq fresh) :: steps) final
  | writeAck : writeAckHistory history = some (frame,lastToAck,middle) → HistoryRun middle steps final →
      HistoryRun history ((history,.writeAckHistory frame) :: steps) final

def acceptedBy : HistoryEvent → List SequenceNumber
  | .insert id true => [id]
  | _ => []

def acceptedIn (steps : List (DatagramHistoryList × HistoryEvent)) : List SequenceNumber :=
  steps.flatMap fun step => acceptedBy step.2

-- The same, as a function of the calls.
inductive HistoryCall where
  | insert (seq : SequenceNumber)
  | writeAckHistory

def perform (history : DatagramHistoryList) : HistoryCall → Option (HistoryEvent × DatagramHistoryList)
  | .insert seq => (history.insert seq).map fun (fresh,after) => (.insert seq fresh,after)
  | .writeAckHistory => (writeAckHistory history).map fun (frame,_,after) => (.writeAckHistory frame,after)

def performAll (history : DatagramHistoryList) :
    List HistoryCall → Option (List (DatagramHistoryList × HistoryEvent) × DatagramHistoryList)
  | [] => some ([],history)
  | call :: calls => do
    let (event,middle) ← perform history call
    let (steps,final) ← performAll middle calls
    some ((history,event) :: steps,final)

theorem performAll_run (ran : performAll history calls = some (steps,final)) : HistoryRun history steps final := by
  induction calls generalizing history steps with
  | nil =>
    cases Option.some.inj ran
    exact .stop
  | cons call calls ih =>
    obtain ⟨⟨event,middle⟩,one,ran⟩ := Option.bind_eq_some_iff.mp ran
    obtain ⟨⟨others,last⟩,rest,ran⟩ := Option.bind_eq_some_iff.mp ran
    cases Option.some.inj ran
    cases call with
    | insert seq =>
      obtain ⟨⟨fresh,after⟩,inserted,same⟩ := Option.map_eq_some_iff.mp one
      cases same
      exact .insert inserted (ih rest)
    | writeAckHistory =>
      obtain ⟨⟨frame,lastToAck,after⟩,written,same⟩ := Option.map_eq_some_iff.mp one
      cases same
      exact .writeAck written (ih rest)

-- Numbers that lie within half of the sequence space.
def HalfSpan (numbers : List SequenceNumber) : Prop :=
  ∃ base, ∀ seq ∈ numbers, sequenceNumberSequentialDistance base seq < 32768

def ArrivesInOrder : DatagramHistoryList × HistoryEvent → Prop
  | (history,.insert id _) => history.InOrder id
  | _ => True

namespace DatagramHistoryList
variable {history final after : DatagramHistoryList} {newest id seq lastToAck : SequenceNumber}

-- Between two calls every element is a number that was accepted.
theorem run_kept (run : HistoryRun history steps final) (ordered : ∀ step ∈ steps, ArrivesInOrder step)
    (kept : Kept history) (known : ∀ offset, history.isValid offset = true → history.numberAt offset ∈ accepted) :
    Kept final ∧ ∀ offset, final.isValid offset = true → final.numberAt offset ∈ accepted ++ acceptedIn steps := by
  induction run generalizing accepted with
  | stop =>
    refine ⟨kept,?_⟩
    intro offset valid
    exact List.mem_append_left _ (known offset valid)
  | insert ran rest ih =>
    rename_i fresh middle steps final history seq
    have later := fun step present => ordered step (List.mem_cons_of_mem _ present)
    rcases insert_cases ran kept (ordered _ List.mem_cons_self) with ⟨rfl,rfl,_⟩ | ⟨rfl,inserted⟩
    · exact ih later kept known
    · have known_after : ∀ offset, middle.isValid offset = true → middle.numberAt offset ∈ accepted ++ [seq] := by
        intro offset valid
        rcases inserted.new offset valid with rfl | ⟨before,same⟩
        · unfold numberAt
          rw [inserted.entry]
          exact List.mem_append_right _ List.mem_cons_self
        · unfold numberAt
          rw [same]
          exact List.mem_append_left _ (known offset before)
      have more := ih later inserted.kept known_after
      rw [List.append_assoc] at more
      exact more
  | writeAck ran _ ih =>
    have later := fun step present => ordered step (List.mem_cons_of_mem _ present)
    obtain ⟨kept,shrinks,_⟩ := writeAckHistory_kept ran kept
    apply ih later kept
    intro offset valid
    rw [shrinks.numbers offset]
    exact known offset (shrinks.valid offset valid)

end DatagramHistoryList

-- The frame on the wire.

section Bits

theorem setBit_reads (historyBits : Bytes) (i j : Nat) (set : bitSet (setBit historyBits j) i = true) :
    bitSet historyBits i = true ∨ i = j := by
  change hasBit ((setBit historyBits j).getD (i / 8) 0) (i % 8) = true at set
  change hasBit (historyBits.getD (i / 8) 0) (i % 8) = true ∨ i = j
  unfold setBit at set
  rw [List.getD_eq_getElem?_getD,List.getElem?_modify] at set
  rw [List.getD_eq_getElem?_getD]
  by_cases byte : j / 8 = i / 8
  · cases present : historyBits[i / 8]? with
    | none =>
      rw [present] at set
      exact .inl set
    | some value =>
      rw [present] at set
      simp only [if_pos byte,Option.map_eq_map,Option.map_some,Option.getD_some] at set ⊢
      rw [hasBit_or,hasBit_one (Nat.mod_lt _ (by decide)) (Nat.mod_lt _ (by decide)),Bool.or_eq_true,
        decide_eq_true_eq] at set
      rcases set with old | bit
      · exact .inl old
      · exact .inr (by omega)
  · simp only [if_neg byte] at set
    simp only [Option.map_eq_map,Option.map_id_fun'] at set
    exact .inl set

-- Every bit of the frame stands for a number that was visited.
theorem markAcked_reads (lastToAck : SequenceNumber) (acked : List SequenceNumber) (historyBits : Bytes) (i : Nat)
    (set : bitSet (acked.foldl (markAcked lastToAck) historyBits) i = true) :
    bitSet historyBits i = true ∨
      ∃ current ∈ acked, sequenceNumberSequentialDistance current lastToAck = i + 1 := by
  induction acked generalizing historyBits with
  | nil => exact .inl set
  | cons current acked ih =>
    rcases ih _ set with before | ⟨other,present,distance⟩
    · unfold markAcked at before
      dsimp only at before
      split at before
      · rename_i positive
        rcases setBit_reads _ _ _ before with old | same
        · exact .inl old
        · exact .inr ⟨current,List.mem_cons_self,by omega⟩
      · exact .inl before
    · exact .inr ⟨other,List.mem_cons_of_mem _ present,distance⟩

theorem bitSet_blank (size i : Nat) : bitSet (List.replicate size 0) i = false := by
  unfold bitSet
  rw [List.getD_eq_getElem?_getD,List.getElem?_replicate]
  split <;> simp

theorem bits_flags : ∀ size : Fin 65, (AckFlags.bits ||| UInt8.ofNat size.val) &&& 0x80 ≠ 0 ∧
    ((AckFlags.bits ||| UInt8.ofNat size.val) &&& 0x7f).toNat = size.val := by decide

theorem bits_frame_reads (lastToAck : SequenceNumber) (historyBits : Bytes) (small : historyBits.length ≤ maxNumBytes) :
    readAckDataFrame (writeU8 (AckFlags.bits ||| UInt8.ofNat historyBits.length) ++ writeU16 lastToAck ++ historyBits) =
      some (.bits lastToAck historyBits) := by
  obtain ⟨flagged,size⟩ := bits_flags ⟨historyBits.length,Nat.lt_succ_of_le small⟩
  dsimp only at flagged size
  have body : readBytes historyBits.length historyBits = .ok (historyBits,[]) := by
    simpa using readBytes_append historyBits []
  unfold readAckDataFrame
  simp only [writeU8,List.cons_append,List.nil_append,readU8_cons,toOption_ok,readU16_writeU16,
    Option.bind_eq_bind,Option.bind_some]
  rw [if_pos flagged]
  simp only [size]
  rw [if_neg (Nat.not_lt.mpr small),body]
  rfl

theorem range_frame_reads (firstToAck lastToAck : SequenceNumber) :
    readAckDataFrame (writeU8 AckFlags.continuous ++ writeU16 lastToAck ++ writeU16 firstToAck) =
      some (.range firstToAck lastToAck) := by
  have body : readU16 (writeU16 firstToAck) = .ok (firstToAck,[]) := by
    simpa using readU16_writeU16 firstToAck []
  unfold readAckDataFrame
  simp only [writeU8,List.cons_append,List.nil_append,readU8_cons,toOption_ok,readU16_writeU16,
    Option.bind_eq_bind,Option.bind_some,body]
  rfl

theorem single_frame_reads (lastToAck : SequenceNumber) :
    readAckDataFrame (writeU8 0 ++ writeU16 lastToAck) = some (.range lastToAck lastToAck) := by
  have body : readU16 (writeU16 lastToAck) = .ok (lastToAck,[]) := by
    simpa using readU16_writeU16 lastToAck []
  unfold readAckDataFrame
  simp only [writeU8,List.singleton_append,readU8_cons,toOption_ok,Option.bind_eq_bind,Option.bind_some,body]
  rfl

theorem keepAlive_frame_reads : readAckDataFrame (writeU8 AckFlags.keepAlive) = some .keepAlive := rfl

end Bits

namespace DatagramHistoryList
variable {history after : DatagramHistoryList} {newest seq : SequenceNumber}

-- A count as large as the distance says that no slot in between is empty.
theorem full_window (framed : Framed history newest n)
    (all : sequenceNumberSequentialDistance (history.numberAt history.first) newest =
      (history.numActiveElements - 1) % 65536) (inside : k ≤ n) :
    ∃ offset, history.isValid offset = true ∧ history.numberAt offset = behind newest k := by
  have size := framed.size
  have distance : sequenceNumberSequentialDistance (behind newest n) newest = n := by
    have := newest.isLt
    unfold sequenceNumberSequentialDistance
    simp only [BitVec.toNat_sub,behind_toNat newest (show n ≤ 65536 by omega)]
    omega
  rw [first_number framed.toWindow framed.oldest,distance] at all
  have holds : history.numActiveElements ≠ 0 :=
    (active_nonempty framed.count).mpr ⟨_,mem_active.mpr framed.oldest⟩
  have some_active : history.active.card ≤ 512 := by
    have bound := Finset.card_le_univ history.active
    simpa using bound
  have exact_count : history.active.card = n + 1 := by
    have count := framed.count
    omega
  have within : history.active ⊆ (Finset.range (n + 1)).image fun k => slot (behind newest k) := by
    intro offset present
    obtain ⟨j,bound,place,_⟩ := framed.within offset (mem_active.mp present)
    exact Finset.mem_image.mpr ⟨j,Finset.mem_range.mpr (by omega),place.symm⟩
  have no_more : ((Finset.range (n + 1)).image fun k => slot (behind newest k)).card ≤ history.active.card := by
    rw [exact_count]
    exact Nat.le_trans Finset.card_image_le (by simp)
  have same := Finset.eq_of_subset_of_card_le within no_more
  have used : slot (behind newest k) ∈ history.active := by
    rw [same]
    exact Finset.mem_image.mpr ⟨k,Finset.mem_range.mpr (by omega),rfl⟩
  have valid := mem_active.mp used
  obtain ⟨j,bound,place,number⟩ := framed.within _ valid
  have equal := slot_behind_inj newest (by omega) (by omega) place
  exact ⟨_,valid,by rw [number,equal]⟩

theorem range_acked {oldest : SequenceNumber} (short : sequenceNumberSequentialDistance oldest newest ≤ 511)
    (acked : AckData.isAcked (.range oldest newest) seq = true) :
    sequenceNumberSequentialDistance oldest seq ≤ sequenceNumberSequentialDistance oldest newest := by
  dsimp only [AckData.isAcked] at acked
  split at acked
  · rename_i same
    rw [beq_iff_eq] at acked
    rw [acked]
  · simp only [Bool.or_eq_true,beq_iff_eq,Bool.and_eq_true,seqLessThan_iff] at acked
    rcases acked with (rfl | rfl) | ⟨above,below⟩
    · exact Nat.le_trans (Nat.le_of_eq ((distance_zero_iff _ _).mpr rfl)) (Nat.zero_le _)
    · exact Nat.le_refl _
    · unfold sequenceNumberSequentialDistance at *
      simp only [BitVec.toNat_sub] at *
      have := oldest.isLt
      have := newest.isLt
      have := seq.isLt
      omega

theorem bits_acked {acked : List SequenceNumber}
    (acks : AckData.isAcked (.bits newest (acked.foldl (markAcked newest) (List.replicate size 0))) seq = true) :
    seq = newest ∨ ∃ current ∈ acked,
      sequenceNumberSequentialDistance current newest = sequenceNumberSequentialDistance seq newest := by
  dsimp only [AckData.isAcked] at acks
  split at acks
  · rename_i same
    exact .inl same
  · split at acks
    · rename_i older
      split at acks
      · cases acks
      · have positive := ((seqLessThan_iff _ _).mp older).1
        rcases markAcked_reads _ _ _ _ acks with blank | ⟨current,present,distance⟩
        · rw [bitSet_blank] at blank
          cases blank
        · exact .inr ⟨current,present,by omega⟩
    · cases acks

theorem framed_short (framed : Framed history newest n) :
    sequenceNumberSequentialDistance (history.numberAt history.first) newest ≤ 511 := by
  have size := framed.size
  have := newest.isLt
  rw [first_number framed.toWindow framed.oldest]
  unfold sequenceNumberSequentialDistance
  simp only [BitVec.toNat_sub,behind_toNat newest (show n ≤ 65536 by omega)]
  omega

theorem distance_inj (same : sequenceNumberSequentialDistance one newest = sequenceNumberSequentialDistance two newest) :
    one = two := by
  rw [←behind_distance newest one,same,behind_distance]

-- What the frame acknowledges is in the history.
theorem frame_acks (ran : writeAckHistory history = some (frame,lastToAck,after)) (kept : Kept history) :
    ∃ ackData, readAckDataFrame frame = some ackData ∧ ∀ seq, ackData.isAcked seq = true →
      ∃ offset, history.isValid offset = true ∧ history.numberAt offset = seq := by
  rcases writeAckHistory_cases ran with ⟨_,rfl,_,_⟩ | ⟨holds,newest,next,middle,visit,_,rest⟩
  · exact ⟨.keepAlive,keepAlive_frame_reads,fun _ acked => nomatch acked⟩
  · cases kept with
    | empty none_left => exact absurd none_left holds
    | framed framed =>
      rename_i last n
      obtain ⟨number,shrinks,_⟩ := getForAck_framed visit framed framed.newestIn
      rw [last_number framed] at number
      subst number
      have newest_in : ∃ offset, history.isValid offset = true ∧ history.numberAt offset = newest :=
        ⟨_,framed.newestIn,last_number framed⟩
      rcases rest with ⟨_,rfl,_⟩ | ⟨acked,walk,apart,⟨all,rfl⟩ | ⟨_,rfl⟩⟩
      · refine ⟨_,single_frame_reads _,?_⟩
        intro seq acked
        simp only [AckData.isAcked,if_true,beq_iff_eq] at acked
        rw [acked]
        exact newest_in
      · refine ⟨_,range_frame_reads _ _,?_⟩
        intro seq acked
        have inside := range_acked (framed_short framed) acked
        rw [first_number framed.toWindow framed.oldest] at inside
        obtain ⟨k,small,rfl⟩ := behind_of_inside framed.size inside
        exact full_window framed all small
      · have size := markAcked_length newest acked (List.replicate (min ((sequenceNumberSequentialDistance
          (history.numberAt history.first) newest + 7) / 8) maxNumBytes) 0)
        rw [List.length_replicate] at size
        have read := bits_frame_reads newest _ (Nat.le_trans (Nat.le_of_eq size) (Nat.min_le_right _ _))
        rw [size] at read
        refine ⟨_,read,?_⟩
        obtain ⟨_,_,inner,start⟩ := walk_start visit framed apart
        rw [start] at walk
        obtain ⟨_,_,_,_,visited,_⟩ := ackWalk_framed walk inner (Nat.le_refl _)
        intro seq acks
        obtain same | ⟨current,present,distance⟩ := bits_acked acks
        · rw [same]
          exact newest_in
        · obtain ⟨offset,valid,number⟩ := visited current present
          refine ⟨offset,shrinks.valid offset valid,?_⟩
          rw [←shrinks.numbers offset,number]
          exact distance_inj distance

end DatagramHistoryList

theorem ack_safety (run : HistoryRun DatagramHistoryList.new steps history)
    (ordered : ∀ step ∈ steps, ArrivesInOrder step)
    (ran : writeAckHistory history = some (frame,lastToAck,after)) :
    ∃ ackData, readAckDataFrame frame = some ackData ∧
      ∀ (sendDatagrams : List DatagramData), ∀ dgram ∈ sendDatagrams,
        dgram ∉ (ConnectionState.applyAckDataToSendQueue sendDatagrams ackData).1 →
          dgram.sequenceNumber ∈ acceptedIn steps := by
  have nothing_yet : ∀ offset, DatagramHistoryList.new.isValid offset = true →
      DatagramHistoryList.new.numberAt offset ∈ ([] : List SequenceNumber) := by
    intro offset valid
    simp [DatagramHistoryList.isValid,DatagramHistoryList.new] at valid
  obtain ⟨kept,known⟩ := DatagramHistoryList.run_kept run ordered DatagramHistoryList.new_kept nothing_yet
  obtain ⟨ackData,read,acks⟩ := DatagramHistoryList.frame_acks ran kept
  refine ⟨ackData,read,?_⟩
  intro sendDatagrams dgram present removed
  have acked : ackData.isAcked dgram.sequenceNumber = true := by
    by_contra missing
    exact removed (List.mem_filter.mpr ⟨present,by simpa using missing⟩)
  obtain ⟨offset,valid,number⟩ := acks _ acked
  rw [←number]
  exact known offset valid

-- Three numbers that arrive in order, the second one late.
theorem ack_safety_gapFilled : ∃ steps history frame lastToAck after,
    HistoryRun DatagramHistoryList.new steps history ∧
      steps.map (·.2) = [.insert 5 true,.insert 7 true,.insert 6 true] ∧
      writeAckHistory history = some (frame,lastToAck,after) ∧
      ∃ ackData, readAckDataFrame frame = some ackData ∧
        ∀ (sendDatagrams : List DatagramData), ∀ dgram ∈ sendDatagrams,
          dgram ∉ (ConnectionState.applyAckDataToSendQueue sendDatagrams ackData).1 →
            dgram.sequenceNumber ∈ acceptedIn steps := by
  refine ⟨_,_,_,_,_,.insert rfl (.insert rfl (.insert rfl .stop)),rfl,rfl,?_⟩
  refine ack_safety (.insert rfl (.insert rfl (.insert rfl .stop))) ?_ rfl
  intro step present
  simp only [List.mem_cons,List.not_mem_nil,or_false] at present
  rcases present with rfl | rfl | rfl
  · exact fun holds => absurd rfl holds
  · refine fun _ => .inl ⟨rfl,?_⟩
    intro i _ empty earlier _
    cases i with
    | zero => exact absurd rfl empty
    | succ i => exact absurd (earlier 0 (Nat.succ_pos i) rfl) (by decide)
  · exact fun _ => .inr (by decide)

-- An old number raises the count but not the start, so the count happens to match
-- a distance over a number that never arrived.
theorem late_number_acknowledges_gap :
    ¬∀ (steps : List (DatagramHistoryList × HistoryEvent)) (history after : DatagramHistoryList) (frame : Bytes)
      (lastToAck : Option SequenceNumber),
      HistoryRun DatagramHistoryList.new steps history →
      HalfSpan (acceptedIn steps) →
      writeAckHistory history = some (frame,lastToAck,after) →
      ∃ ackData, readAckDataFrame frame = some ackData ∧
        ∀ (sendDatagrams : List DatagramData), ∀ dgram ∈ sendDatagrams,
          dgram ∉ (ConnectionState.applyAckDataToSendQueue sendDatagrams ackData).1 →
            dgram.sequenceNumber ∈ acceptedIn steps := by
  intro always
  have made : (performAll DatagramHistoryList.new [.insert 10,.insert 12,.insert 5]).bind (fun run =>
      (writeAckHistory run.2).map fun written => (acceptedIn run.1,written.1)) =
        some ([10,12,5],[0x40,0,12,0,10]) := by decide
  obtain ⟨⟨steps,history⟩,run,made⟩ := Option.bind_eq_some_iff.mp made
  obtain ⟨⟨frame,lastToAck,after⟩,written,same⟩ := Option.map_eq_some_iff.mp made
  obtain ⟨accepted,bytes⟩ := Prod.mk.inj same
  dsimp only at accepted bytes
  obtain ⟨ackData,read,acks⟩ :=
    always steps history after frame lastToAck (performAll_run run) ⟨5,by simp [accepted,sequenceNumberSequentialDistance]⟩ written
  rw [bytes,show readAckDataFrame [0x40,0,12,0,10] = some (.range 10 12) from rfl] at read
  cases Option.some.inj read
  have gap := acks [DatagramData.new 11 0] _ List.mem_cons_self (by
    intro kept
    have left : ConnectionState.applyAckDataToSendQueue [DatagramData.new 11 0] (.range 10 12) = ([],[]) := rfl
    rw [left] at kept
    cases kept)
  rw [accepted] at gap
  exact absurd gap (by decide)

end NwNetwork.Carrier
