import NwNetwork.CarrierLossless
import NwNetwork.CarrierConservation
import NwNetwork.CarrierResendOrder

namespace NwNetwork.Carrier
open WireReader Serialize

section Bounds

-- The fill loop comes to a message: what it has filled until then and the head of
-- the queue it works on.
inductive LooksAt (maxDatagramSize : Nat) : List Queued → Filling → Filling → MessageData → Prop where
  | here : LooksAt maxDatagramSize ((priority,msg :: queue) :: queues) filling filling msg
  | next : LooksAt maxDatagramSize queues filling reached msg →
      LooksAt maxDatagramSize ((priority,[]) :: queues) filling reached msg
  | takes : filling.Fits maxDatagramSize head →
      LooksAt maxDatagramSize ((priority,queue) :: queues) (filling.write priority head) reached msg →
      LooksAt maxDatagramSize ((priority,head :: queue) :: queues) filling reached msg
  | leaves : ¬filling.Fits maxDatagramSize head →
      LooksAt maxDatagramSize queues (filling.look head) reached msg →
      LooksAt maxDatagramSize ((priority,head :: queue) :: queues) filling reached msg

variable {filling final reached : Filling} {queues left : List Queued}

-- What leaves a queue was looked at and fitted.
theorem filled_looks (filled : Filled maxDatagramSize queues filling popped left final)
    (present : (priority,msg) ∈ popped) :
    ∃ reached, LooksAt maxDatagramSize queues filling reached msg ∧ reached.Fits maxDatagramSize msg := by
  induction filled with
  | done => cases present
  | next _ ih =>
    obtain ⟨reached,looks,fits⟩ := ih present
    exact ⟨reached,.next looks,fits⟩
  | takes _ room _ ih =>
    rcases List.mem_cons.mp present with same | later
    · cases same
      exact ⟨_,.here,room⟩
    · obtain ⟨reached,looks,fits⟩ := ih later
      exact ⟨reached,.takes room looks,fits⟩
  | leaves _ tooLong _ ih =>
    obtain ⟨reached,looks,fits⟩ := ih present
    exact ⟨reached,.leaves tooLong looks,fits⟩

-- Every message that a call takes out of the queues is one of these.
theorem generated_looks {lz4 : Lz4} {queued after : ConnectionState}
    (ran : queued.generateDatagram lz4 now maxDatagramSize = some (result,after))
    (present : (priority,msg) ∈ poppedMessages queued.toSend after.toSend) :
    ∃ reached, LooksAt maxDatagramSize (priorities.map fun priority => (priority,queued.toSend priority))
      ⟨WriteContext.start,[],DatagramData.new (queued.datagramSeqNum + 1) now⟩ reached msg ∧
      reached.Fits maxDatagramSize msg := by
  rcases generateDatagram_cases ran with ⟨_,_,filled,_⟩ | ⟨_,_,filled,_⟩ | ⟨_,rfl⟩
  · rw [←(filled_popped filled).1] at present
    exact filled_looks filled present
  · rw [←(filled_popped filled).1] at present
    exact filled_looks filled present
  · simp [poppedMessages,poppedFrom] at present

theorem write_room (fits : filling.Fits maxDatagramSize msg)
    (room : DatagramHeader.size + filling.payloadBuffer.length ≤ maxDatagramSize) :
    DatagramHeader.size + (filling.write priority msg).payloadBuffer.length ≤ maxDatagramSize := by
  unfold Filling.Fits at fits
  simp only [Filling.write,List.length_append,messageHeaderSize_exact]
  omega

theorem looks_room (looks : LooksAt maxDatagramSize queues filling reached msg)
    (room : DatagramHeader.size + filling.payloadBuffer.length ≤ maxDatagramSize) :
    DatagramHeader.size + reached.payloadBuffer.length ≤ maxDatagramSize := by
  induction looks with
  | here => exact room
  | next _ ih => exact ih room
  | takes fits _ ih => exact ih (write_room fits room)
  | leaves _ _ ih => exact ih room

theorem finishDatagram_length (lz4 : Lz4) (compressing : Bool) (seq : SequenceNumber) (payload : Bytes) :
    (finishDatagram lz4 compressing seq payload).length ≤ DatagramHeader.size + payload.length := by
  have whole : ∀ firstByte body, (datagramBytes firstByte seq body).length = DatagramHeader.size + body.length := by
    intro firstByte body
    simp [datagramBytes,writeU16,DatagramHeader.size]
    omega
  unfold finishDatagram
  split
  · split
    · exact Nat.le_of_eq (whole _ _)
    · rw [whole]
      omega
  · exact Nat.le_of_eq (whole _ _)

theorem generated_length {lz4 : Lz4} {queued after : ConnectionState}
    (ran : queued.generateDatagram lz4 now maxDatagramSize = some (.ok (some datagram),after)) :
    datagram.length ≤ maxDatagramSize := by
  rcases generateDatagram_cases ran with ⟨popped,final,filled,written,sent,_⟩ | ⟨_,_,_,_,nothing,_⟩ | ⟨nothing,_⟩
  · have room := filled_room filled (Nat.le_refl _) (Nat.zero_le _)
    have some_bytes := List.length_pos_iff.mpr written
    cases sent
    refine Nat.le_trans (finishDatagram_length _ _ _ _) ?_
    omega
  · cases nothing
  · exact absurd rfl (nothing datagram)

end Bounds

-- What queueing lets in: a piece of a message on a channel that exists.
def Piece (msg : MessageData) : Prop :=
  msg.data.length ≤ Mtu.maxMessageDataSize ∧ msg.channel.toNat < maxChannels

def Sendable (state : ConnectionState) : Prop := ∀ priority, ∀ msg ∈ state.toSend priority, Piece msg

-- How many messages are queued.
def waiting (toSend : PerPriority (List MessageData)) : Nat :=
  (priorities.map fun priority => (toSend priority).length).sum

section Queues
variable {state queued after : ConnectionState} {toSend : PerPriority (List MessageData)}

theorem waiting_four (toSend : PerPriority (List MessageData)) :
    waiting toSend = (toSend 0).length + (toSend 1).length + (toSend 2).length + (toSend 3).length := by
  simp [waiting,priorities,Nat.add_assoc]

theorem waiting_zero : waiting toSend = 0 ↔ ∀ priority, toSend priority = [] := by
  rw [waiting_four]
  constructor
  · intro none_left priority
    rcases priority_cases priority with rfl | rfl | rfl | rfl
    all_goals exact List.length_eq_zero_iff.mp (by omega)
  · intro empty
    simp [empty]

theorem waiting_push (toSend : PerPriority (List MessageData)) (priority : Priority) (more : List MessageData) :
    waiting (toSend.set priority (toSend priority ++ more)) = waiting toSend + more.length := by
  rw [waiting_four,waiting_four]
  rcases priority_cases priority with rfl | rfl | rfl | rfl
  all_goals
    simp [PerPriority.set]
    omega

theorem pieces_push (pieces : ∀ priority, ∀ msg ∈ toSend priority, Piece msg) (priority : Priority)
    (more : ∀ msg ∈ added, Piece msg) :
    ∀ other, ∀ msg ∈ (toSend.set priority (toSend priority ++ added)) other, Piece msg := by
  intro other msg present
  by_cases same : other = priority
  · subst same
    simp only [PerPriority.set_same,List.mem_append] at present
    rcases present with old | new
    · exact pieces other msg old
    · exact more msg new
  · simp only [PerPriority.set_other _ _ same] at present
    exact pieces other msg present

theorem unit_pieces (unit : IsUnit message frames) (real : message.channel.toNat < maxChannels) :
    ∀ frame ∈ frames, Piece frame := by
  obtain ⟨head,tail,rfl,parts⟩ := unit
  intro frame present
  exact ⟨parts.small frame present,parts.ofChannel frame present ▸ real⟩

theorem queueMessage_pieces (ran : state.queueMessage message priority = some after) :
    ∀ piece ∈ appendedMessages state.toSend after.toSend, Piece piece := by
  rcases ConnectionState.queueMessage_appends ran with ⟨_,rfl⟩ | ⟨_,real,frames,unit,appends⟩
  · rw [appended_none]
    exact fun _ present => absurd present List.not_mem_nil
  · rw [appends.queues,appended_set]
    exact unit_pieces unit real

theorem queueMessage_sendable (ran : state.queueMessage message priority = some after) (sendable : Sendable state) :
    Sendable after := by
  rcases ConnectionState.queueMessage_appends ran with ⟨_,rfl⟩ | ⟨_,real,frames,unit,appends⟩
  · exact sendable
  · unfold Sendable
    rw [appends.queues]
    exact pieces_push sendable _ (unit_pieces unit real)

theorem queueAcks_sendable (ran : state.queueAcks now = some queued) (sendable : Sendable state) :
    Sendable queued ∧ waiting queued.toSend = waiting state.toSend + if state.ackDue now then 1 else 0 := by
  rcases ConnectionState.queueAcks_cases ran with ⟨early,rfl⟩ | ⟨due,_,_,_,ack,_,_,system,short,same⟩
  · exact ⟨sendable,by simp [early]⟩
  · have small : Piece ack := by
      refine ⟨Nat.le_trans short (by decide),?_⟩
      rw [system]
      decide
    rw [same]
    refine ⟨pieces_push sendable 0 ?_,?_⟩
    · intro msg present
      rw [List.mem_singleton.mp present]
      exact small
    · simp [waiting_push,due]

end Queues

-- Repeated calls, each with the state before it and its time.
inductive PrepareRun (lz4 : Lz4) (maxDatagramSize : Nat) :
    ConnectionState → List (ConnectionState × Nat) → ConnectionState → Prop where
  | stop : PrepareRun lz4 maxDatagramSize state [] state
  | call : state.prepareOutgoingDatagram lz4 now maxDatagramSize = some (result,middle) →
      PrepareRun lz4 maxDatagramSize middle steps final →
      PrepareRun lz4 maxDatagramSize state ((state,now) :: steps) final

-- No acknowledgement is due at the call.
def quiet (step : ConnectionState × Nat) : Bool := !step.1.ackDue step.2

section Progress
variable {lz4 : Lz4} {state queued after final : ConnectionState}

theorem filled_waiting (filled : Filled maxDatagramSize queues filling popped left reached) :
    (queues.map fun queue => queue.2.length).sum = popped.length + (left.map fun queue => queue.2.length).sum := by
  induction filled with
  | done => rfl
  | next _ ih => simpa using ih
  | takes _ _ _ ih =>
    simp only [List.map_cons,List.sum_cons,List.length_cons] at ih ⊢
    omega
  | leaves _ _ _ ih =>
    simp only [List.map_cons,List.sum_cons] at ih ⊢
    omega

theorem generated_error (ran : queued.generateDatagram lz4 now maxDatagramSize = some (.error error,after)) :
    maxDatagramSize ≤ DatagramHeader.size := by
  unfold ConnectionState.generateDatagram at ran
  split at ran
  · cases ran
  · split at ran
    · assumption
    · obtain ⟨⟨toSend,filling⟩,_,rest⟩ := Option.bind_eq_some_iff.mp ran
      dsimp only at rest
      split at rest
      · cases rest
      · cases rest

-- A datagram takes at least one message with it.
theorem generated_takes (ran : queued.generateDatagram lz4 now maxDatagramSize = some (.ok (some datagram),after)) :
    waiting after.toSend < waiting queued.toSend := by
  rcases generateDatagram_cases ran with ⟨popped,filling,filled,written,_,_⟩ | ⟨_,_,_,_,nothing,_⟩ | ⟨nothing,_⟩
  · have counted := filled_waiting filled
    have some_popped : popped ≠ [] := by
      rintro rfl
      exact written (filled_idle filled).2
    have positive := List.length_pos_iff.mpr some_popped
    simp only [List.map_map,Function.comp_def] at counted
    unfold waiting
    omega
  · cases nothing
  · exact absurd rfl (nothing datagram)

theorem generate_sendable (ran : queued.generateDatagram lz4 now maxDatagramSize = some (result,after))
    (sendable : Sendable queued) : Sendable after := by
  intro priority msg present
  refine sendable priority msg ?_
  rw [generate_queues ran priority]
  exact List.mem_append_right _ present

theorem generate_step (large : Mtu.maxDatagramSize ≤ maxDatagramSize) (sendable : Sendable queued)
    (ran : queued.generateDatagram lz4 now maxDatagramSize = some (result,after)) :
    waiting after.toSend ≤ waiting queued.toSend - 1 := by
  cases result with
  | error error =>
    have tooSmall := generated_error ran
    have room : DatagramHeader.size < Mtu.maxDatagramSize := by decide
    omega
  | ok sent =>
    cases sent with
    | none =>
      have empty := stop_empty large (fun priority msg present => (sendable priority msg present).1) ran
      have none_left : waiting after.toSend = 0 := by
        refine waiting_zero.mpr fun priority => ?_
        have split := generate_queues ran priority
        rw [empty priority] at split
        exact (List.append_eq_nil_iff.mp split.symm).2
      omega
    | some datagram =>
      have fewer := generated_takes ran
      omega

theorem prepare_step (large : Mtu.maxDatagramSize ≤ maxDatagramSize) (sendable : Sendable state)
    (ran : state.prepareOutgoingDatagram lz4 now maxDatagramSize = some (result,after)) :
    Sendable after ∧ waiting after.toSend ≤ waiting state.toSend - if state.ackDue now then 0 else 1 := by
  obtain ⟨queued,acks,generated⟩ := Option.bind_eq_some_iff.mp ran
  obtain ⟨pieces,counted⟩ := queueAcks_sendable acks sendable
  have fewer := generate_step large pieces generated
  refine ⟨generate_sendable generated pieces,?_⟩
  cases due : state.ackDue now with
  | true =>
    simp only [due,if_true] at counted ⊢
    omega
  | false =>
    simp only [due,Bool.false_eq_true,if_false] at counted ⊢
    omega

theorem fillQueue_returns (real : ∀ msg ∈ queue, msg.channel.toNat < maxChannels) (filling : Filling) :
    ∃ rest reached, fillQueue maxDatagramSize priority queue filling = some (rest,reached) := by
  induction queue generalizing filling with
  | nil => exact ⟨_,_,rfl⟩
  | cons msg queue ih =>
    unfold fillQueue
    rw [if_neg (Nat.not_le.mpr (real msg List.mem_cons_self))]
    split
    · exact ih (fun other later => real other (List.mem_cons_of_mem _ later)) _
    · exact ⟨_,_,rfl⟩

theorem fillFrom_returns {queues : PerPriority (List MessageData)} (distinct : order.Nodup)
    (real : ∀ priority ∈ order, ∀ msg ∈ queues priority, msg.channel.toNat < maxChannels) (filling : Filling) :
    ∃ left reached, fillFrom maxDatagramSize queues order filling = some (left,reached) := by
  induction order generalizing queues filling with
  | nil => exact ⟨_,_,rfl⟩
  | cons priority order ih =>
    obtain ⟨fresh,distinct⟩ := List.nodup_cons.mp distinct
    obtain ⟨rest,middle,ran⟩ := fillQueue_returns (real priority List.mem_cons_self) filling
    unfold fillFrom
    rw [ran]
    refine ih distinct ?_ middle
    intro other later msg present
    have ne : other ≠ priority := by
      rintro rfl
      exact fresh later
    rw [PerPriority.set_other _ _ ne] at present
    exact real other (List.mem_cons_of_mem _ later) msg present

theorem generate_returns (lz4 : Lz4) (now maxDatagramSize : Nat) (sendable : Sendable queued) :
    ∃ result after, queued.generateDatagram lz4 now maxDatagramSize = some (result,after) := by
  unfold ConnectionState.generateDatagram
  split
  · exact ⟨_,_,rfl⟩
  · split
    · exact ⟨_,_,rfl⟩
    · obtain ⟨left,reached,ran⟩ := fillFrom_returns (show priorities.Nodup by decide)
        (fun priority _ msg present => (sendable priority msg present).2)
        ⟨WriteContext.start,[],DatagramData.new (queued.datagramSeqNum + 1) now⟩
      dsimp only
      rw [ran]
      simp only [Option.bind_eq_bind,Option.bind_some]
      split
      · exact ⟨_,_,rfl⟩
      · exact ⟨_,_,rfl⟩

theorem queueAcks_returns (written : state.ackDue now = true → ∃ bytes last history,
      writeAckHistory state.receivedDatagramsHistory = some (bytes,last,history)) :
    ∃ queued, state.queueAcks now = some queued := by
  unfold ConnectionState.queueAcks
  split
  · rename_i due
    obtain ⟨bytes,last,history,ran⟩ := written due
    have made : state.writeAckData = some (bytes,{ state with
        receivedDatagramsHistory := history, lastAckedDatagram := last.getD state.lastAckedDatagram }) := by
      unfold ConnectionState.writeAckData
      rw [ran]
      rfl
    rw [made]
    have single : (ConnectionState.ackMessage state.isConnecting bytes).data.length ≤ Mtu.maxMessageDataSize := by
      have short := writeAckHistory_short ran
      have room : 68 ≤ Mtu.maxMessageDataSize := by decide
      simp only [ConnectionState.ackMessage,List.length_append,List.length_singleton]
      omega
    simp only [Option.bind_eq_bind,Option.bind_some]
    unfold ConnectionState.queueMessage
    rw [if_neg (fun far => absurd far.1 (by decide : ¬maxChannels ≤ systemChannel.toNat)),if_pos single]
    exact ⟨_,rfl⟩
  · exact ⟨_,rfl⟩

theorem prepare_returns (lz4 : Lz4) (maxDatagramSize : Nat) (sendable : Sendable state)
    (written : state.ackDue now = true → ∃ bytes last history,
      writeAckHistory state.receivedDatagramsHistory = some (bytes,last,history)) :
    ∃ result after, state.prepareOutgoingDatagram lz4 now maxDatagramSize = some (result,after) := by
  obtain ⟨queued,acks⟩ := queueAcks_returns written
  obtain ⟨result,after,generated⟩ := generate_returns lz4 now maxDatagramSize (queueAcks_sendable acks sendable).1
  refine ⟨result,after,?_⟩
  unfold ConnectionState.prepareOutgoingDatagram
  rw [acks]
  exact generated

theorem quiet_cons (state : ConnectionState) (now : Nat) (steps : List (ConnectionState × Nat)) :
    ((state,now) :: steps).countP quiet = steps.countP quiet + if state.ackDue now then 0 else 1 := by
  rw [List.countP_cons]
  cases due : state.ackDue now with
  | true => simp [quiet,due]
  | false => simp [quiet,due]

theorem run_waiting (run : PrepareRun lz4 maxDatagramSize state steps final)
    (large : Mtu.maxDatagramSize ≤ maxDatagramSize) (sendable : Sendable state) :
    Sendable final ∧ waiting final.toSend ≤ waiting state.toSend - steps.countP quiet := by
  induction run with
  | stop => exact ⟨sendable,Nat.le_refl _⟩
  | call ran _ ih =>
    obtain ⟨kept,fewer⟩ := prepare_step large sendable ran
    obtain ⟨sound,rest⟩ := ih kept
    refine ⟨sound,?_⟩
    rw [quiet_cons]
    omega

theorem requeued_pieces (sendable : Sendable state) (kept : Keeps Piece state.sendDatagrams) (now : Nat) :
    Sendable (state.processResends now).2 := by
  intro priority msg present
  rw [processResends_queues] at present
  rcases List.mem_append.mp present with resent | unsent
  · obtain ⟨list,among,inList⟩ := List.mem_flatten.mp resent
    obtain ⟨dgram,old,rfl⟩ := List.mem_map.mp (List.mem_reverse.mp among)
    exact kept dgram ((List.takeWhile_sublist _).subset (List.mem_filter.mp old).1) priority msg inList
  · exact sendable priority msg unsent

theorem step_sendable {ledger next : Ledger} (ran : ledger.step lz4 call = some next)
    (sendable : Sendable ledger.state) (kept : Keeps Piece ledger.state.sendDatagrams) : Sendable next.state := by
  cases call with
  | queueMessage message priority =>
    obtain ⟨after,queue,same⟩ := Option.bind_eq_some_iff.mp ran
    cases Option.some.inj same
    exact queueMessage_sendable queue sendable
  | prepareOutgoingDatagram now maxDatagramSize =>
    obtain ⟨⟨result,after⟩,prepare,same⟩ := Option.bind_eq_some_iff.mp ran
    cases Option.some.inj same
    obtain ⟨queued,acks,generated⟩ := Option.bind_eq_some_iff.mp prepare
    exact generate_sendable generated (queueAcks_sendable acks sendable).1
  | processIncomingDatagram data =>
    obtain ⟨⟨result,after⟩,incoming,same⟩ := Option.bind_eq_some_iff.mp ran
    cases Option.some.inj same
    intro priority msg present
    dsimp only at present
    rw [(incoming_records incoming).2] at present
    exact sendable priority msg present
  | processResends now =>
    cases Option.some.inj ran
    exact requeued_pieces sendable kept now

theorem run_sendable {ledger last : Ledger} (run : LedgerRun lz4 ledger steps last)
    (sendable : Sendable ledger.state) (kept : Keeps Piece ledger.state.sendDatagrams) : Sendable last.state := by
  induction run with
  | stop => exact sendable
  | call ran _ ih =>
    refine ih (step_sendable ran sendable kept) (step_keeps ran kept ?_)
    intro now queued acks priority msg present _
    exact (queueAcks_sendable acks sendable).1 priority msg present

theorem reached_sendable {last : Ledger} (run : LedgerRun lz4 (Ledger.new now sendCompressed) steps last) :
    Sendable last.state :=
  run_sendable run (fun _ _ present => absurd present List.not_mem_nil) fun _ present => absurd present List.not_mem_nil

-- Right after a call no acknowledgement is due.
theorem prepare_quiet (ran : state.prepareOutgoingDatagram lz4 now maxDatagramSize = some (result,after)) :
    after.ackDue now = false := by
  obtain ⟨queued,acks,generated⟩ := Option.bind_eq_some_iff.mp ran
  have noted : queued.ackDue now = false := by
    rcases ConnectionState.queueAcks_cases acks with ⟨early,rfl⟩ | ⟨_,_,_,_,_,_,_,_,_,same⟩
    · exact early
    · rw [same]
      simp [ConnectionState.ackDue,ackKeepAlive,milliseconds]
  rcases generateDatagram_cases generated with ⟨_,_,_,_,_,same⟩ | ⟨_,_,_,_,_,same⟩ | ⟨_,rfl⟩
  · rw [same]
    exact noted
  · rw [same]
    exact noted
  · exact noted

theorem burst_quiet (run : PrepareRun lz4 maxDatagramSize state steps final)
    (together : ∀ step ∈ steps, step.2 = now) (calm : state.ackDue now = false) :
    steps.countP quiet = steps.length := by
  induction run with
  | stop => rfl
  | call ran _ ih =>
    obtain rfl := together _ List.mem_cons_self
    rw [quiet_cons,ih (fun step later => together step (List.mem_cons_of_mem _ later)) (prepare_quiet ran),
      if_neg (by simp [calm]),List.length_cons]

-- Calls at one time are quiet from the second one on.
theorem burst_counts (run : PrepareRun lz4 maxDatagramSize state steps final)
    (together : ∀ step ∈ steps, step.2 = now) : steps.length ≤ steps.countP quiet + 1 := by
  cases run with
  | stop => exact Nat.zero_le _
  | call ran rest =>
    obtain rfl := together _ List.mem_cons_self
    rw [quiet_cons,burst_quiet rest (fun step later => together step (List.mem_cons_of_mem _ later)) (prepare_quiet ran),
      List.length_cons]
    omega

-- The bounds of the datagrams, the loop and the pieces, and what repeated calls
-- come to.
structure OutgoingBounds (lz4 : Lz4) : Prop where
  length : ∀ (state after : ConnectionState) (now maxDatagramSize : Nat) (datagram : Bytes),
    state.prepareOutgoingDatagram lz4 now maxDatagramSize = some (.ok (some datagram),after) →
      datagram.length ≤ maxDatagramSize
  positions : ∀ (queued : ConnectionState) (now maxDatagramSize : Nat) (reached : Filling) (msg : MessageData),
    DatagramHeader.size < maxDatagramSize →
    LooksAt maxDatagramSize (priorities.map fun priority => (priority,queued.toSend priority))
      ⟨WriteContext.start,[],DatagramData.new (queued.datagramSeqNum + 1) now⟩ reached msg →
    DatagramHeader.size + reached.payloadBuffer.length ≤ maxDatagramSize ∧
      (writeMessageHeader msg (reached.context.form msg)).length = messageHeaderSize msg (reached.context.form msg)
  visited : ∀ (queued after : ConnectionState) (now maxDatagramSize : Nat)
    (result : Except PrepareError (Option Bytes)) (priority : Priority) (msg : MessageData),
    queued.generateDatagram lz4 now maxDatagramSize = some (result,after) →
    (priority,msg) ∈ poppedMessages queued.toSend after.toSend →
    ∃ reached, LooksAt maxDatagramSize (priorities.map fun priority => (priority,queued.toSend priority))
      ⟨WriteContext.start,[],DatagramData.new (queued.datagramSeqNum + 1) now⟩ reached msg ∧
      reached.Fits maxDatagramSize msg
  pieces : ∀ (state after : ConnectionState) (message : MessageData) (priority : Nat) (piece : MessageData)
    (filling : Filling), state.queueMessage message priority = some after →
    piece ∈ appendedMessages state.toSend after.toSend → filling.payloadBuffer = [] →
      filling.Fits Mtu.maxDatagramSize piece
  reached : ∀ (now : Nat) (sendCompressed : Bool) (calls : List (Ledger × ConnectionCall)) (ledger : Ledger),
    LedgerRun lz4 (Ledger.new now sendCompressed) calls ledger → Sendable ledger.state
  returns : ∀ (state : ConnectionState) (now : Nat), Sendable state →
    (state.ackDue now = true → ∃ bytes last history,
      writeAckHistory state.receivedDatagramsHistory = some (bytes,last,history)) →
    ∃ result after, state.prepareOutgoingDatagram lz4 now Mtu.maxDatagramSize = some (result,after)
  empties : ∀ (state final : ConnectionState) (steps : List (ConnectionState × Nat)), Sendable state →
    PrepareRun lz4 Mtu.maxDatagramSize state steps final → waiting state.toSend ≤ steps.countP quiet →
      ∀ priority, final.toSend priority = []
  burst : ∀ (state final : ConnectionState) (steps : List (ConnectionState × Nat)) (now : Nat), Sendable state →
    PrepareRun lz4 Mtu.maxDatagramSize state steps final → (∀ step ∈ steps, step.2 = now) →
      waiting state.toSend < steps.length → ∀ priority, final.toSend priority = []

theorem outgoing_bounds (lz4 : Lz4) : OutgoingBounds lz4 where
  length := by
    intro state after now maxDatagramSize datagram ran
    obtain ⟨queued,_,generated⟩ := Option.bind_eq_some_iff.mp ran
    exact generated_length generated
  positions := by
    intro queued now maxDatagramSize reached msg enough looks
    exact ⟨looks_room looks (Nat.le_of_lt enough),messageHeaderSize_exact _ _⟩
  visited := fun _ _ _ _ _ _ _ ran present => generated_looks ran present
  pieces := by
    intro state after message priority piece filling ran present empty
    exact small_fits (Nat.le_refl _) empty (queueMessage_pieces ran piece present).1
  reached := fun _ _ _ _ run => reached_sendable run
  returns := fun _ _ sendable written => prepare_returns lz4 Mtu.maxDatagramSize sendable written
  empties := by
    intro state final steps sendable run enough
    have fewer := (run_waiting run (Nat.le_refl _) sendable).2
    exact waiting_zero.mp (by omega)
  burst := by
    intro state final steps now sendable run together enough
    have fewer := (run_waiting run (Nat.le_refl _) sendable).2
    have counted := burst_counts run together
    exact waiting_zero.mp (by omega)

end Progress

section Starved
variable {lz4 : Lz4} {state after final : ConnectionState}

-- A piece of the largest size waits alone behind an empty first queue.
structure Starved (state : ConnectionState) : Prop where
  first : state.toSend 0 = []
  second : ∃ msg, state.toSend 1 = [msg] ∧ msg.channel = 0 ∧ msg.data.length = Mtu.maxMessageDataSize
  others : state.toSend 2 = [] ∧ state.toSend 3 = []

theorem full_blocked {ack msg : MessageData} (system : ack.channel = systemChannel) (user : msg.channel = 0)
    (short : ack.data.length ≤ 68) (full : msg.data.length = Mtu.maxMessageDataSize)
    (filled : Filled Mtu.maxDatagramSize [(0,[ack]),(1,[msg]),(2,[]),(3,[])]
      ⟨WriteContext.start,[],dgramData⟩ popped [(0,zero),(1,one),(2,two),(3,three)] reached) :
    zero = [] ∧ one = [msg] ∧ two = [] ∧ three = [] := by
  cases filled with
  | leaves _ tooLong _ =>
    exact absurd (small_fits (Nat.le_refl _) rfl (Nat.le_trans short (by decide))) tooLong
  | takes _ _ filled =>
    cases filled with
    | next filled =>
      cases filled with
      | takes _ fits _ =>
        have form : ((WriteContext.start.look ack).wrote ack).form msg = ⟨true,true,true⟩ := by
          simp [WriteContext.form,WriteContext.look,WriteContext.wrote,WriteContext.start,system,user,
            PerChannel.set,systemChannel]
        have header : 8 ≤ messageHeaderSize msg ⟨true,true,true⟩ := by
          simp [messageHeaderSize,HeaderSizes.flags,HeaderSizes.dataSize,HeaderSizes.channelInfo,
            HeaderSizes.sequenceNumber,HeaderSizes.sequenceReliableNumber]
        have written : 3 ≤ (writeMessageHeader ack (WriteContext.start.form ack)).length := by
          rw [messageHeaderSize_exact]
          simp only [messageHeaderSize,HeaderSizes.flags,HeaderSizes.dataSize]
          omega
        have room : Mtu.maxDatagramSize = Mtu.maxMessageDataSize + 14 := by decide
        unfold Filling.Fits at fits
        simp only [Filling.write,List.length_append,List.length_nil,form,full,room,DatagramHeader.size] at fits
        omega
      | leaves _ _ filled =>
        cases filled with
        | next filled =>
          cases filled with
          | next _ => exact ⟨rfl,rfl,rfl,rfl⟩

theorem starved_sendable (starved : Starved state) : Sendable state := by
  obtain ⟨msg,second,user,full⟩ := starved.second
  intro priority other present
  rcases priority_cases priority with rfl | rfl | rfl | rfl
  · simp [starved.first] at present
  · obtain rfl : other = msg := by simpa [second] using present
    exact ⟨Nat.le_of_eq full,by simp [user,maxChannels]⟩
  · simp [starved.others.1] at present
  · simp [starved.others.2] at present

-- A call at which an acknowledgement is due spends its datagram on that.
theorem starved_step (starved : Starved state) (due : state.ackDue now = true)
    (ran : state.prepareOutgoingDatagram lz4 now Mtu.maxDatagramSize = some (result,after)) :
    Starved after ∧ after.lastAckSendTime = now := by
  obtain ⟨queued,acks,generated⟩ := Option.bind_eq_some_iff.mp ran
  obtain ⟨msg,second,user,full⟩ := starved.second
  rcases ConnectionState.queueAcks_cases acks with ⟨early,_⟩ | ⟨_,_,_,_,ack,_,_,system,short,noted⟩
  · exact absurd (due.symm.trans early) (by decide)
  · have queues : queued.toSend = state.toSend.set 0 [ack] := by
      rw [noted]
      simp [starved.first]
    have zero : queued.toSend 0 = [ack] := by simp [queues]
    have one : queued.toSend 1 = [msg] := by simp [queues,PerPriority.set,second]
    have two : queued.toSend 2 = [] := by simp [queues,PerPriority.set,starved.others.1]
    have three : queued.toSend 3 = [] := by simp [queues,PerPriority.set,starved.others.2]
    cases result with
    | error error => exact absurd (generated_error generated) (by decide)
    | ok sent =>
      cases sent with
      | none =>
        have pieces := (queueAcks_sendable acks (starved_sendable starved)).1
        have empty := stop_empty (Nat.le_refl _) (fun priority msg present => (pieces priority msg present).1) generated 0
        rw [zero] at empty
        cases empty
      | some datagram =>
        rcases generateDatagram_cases generated with ⟨popped,reached,filled,_,_,same⟩ | ⟨_,_,_,_,nothing,_⟩ | ⟨nothing,_⟩
        · simp only [priorities,List.map_cons,List.map_nil,zero,one,two,three] at filled
          obtain ⟨first,kept,third,fourth⟩ := full_blocked system user short full filled
          refine ⟨⟨first,⟨msg,kept,user,full⟩,third,fourth⟩,?_⟩
          rw [same,noted]
        · cases nothing
        · exact absurd rfl (nothing datagram)

theorem starved_run (run : PrepareRun lz4 Mtu.maxDatagramSize state steps final) (starved : Starved state)
    (times : steps.map Prod.snd = (List.range' start count).map fun call => call * ackKeepAlive)
    (before : state.lastAckSendTime + ackKeepAlive ≤ start * ackKeepAlive) : Starved final := by
  induction run generalizing start count with
  | stop => exact starved
  | call ran _ ih =>
    cases count with
    | zero => cases times
    | succ count =>
      rw [List.range'_succ,List.map_cons,List.map_cons] at times
      obtain ⟨rfl,rest⟩ := List.cons.inj times
      obtain ⟨kept,sent⟩ := starved_step starved (by simp [ConnectionState.ackDue]; omega) ran
      refine ih kept rest ?_
      rw [sent,Nat.add_mul]
      omega

def fullMessage : MessageData := userMessage 0 .reliable (List.replicate Mtu.maxMessageDataSize 0)

theorem fullMessage_queued (state : ConnectionState) :
    state.queueMessage fullMessage 1 = some (state.queueMessageChunk fullMessage 1 1) := by
  have full : fullMessage.data.length ≤ Mtu.maxMessageDataSize := Nat.le_of_eq List.length_replicate
  unfold ConnectionState.queueMessage
  rw [if_neg (fun far => absurd far.1 (by decide : ¬maxChannels ≤ (0 : UInt8).toNat)),if_pos full]

-- A full piece in the second queue and calls that are a tenth of a second apart.
theorem full_piece_starved :
    ¬∀ (lz4 : Lz4) (calls : List (Ledger × ConnectionCall)) (ledger : Ledger) (times : Nat → Nat),
      LedgerRun lz4 (Ledger.new 0 false) calls ledger → (∀ call, times call ≤ times (call + 1)) →
      ∃ count steps final, PrepareRun lz4 Mtu.maxDatagramSize ledger.state steps final ∧
        steps.map Prod.snd = (List.range' 1 count).map times ∧ ∀ priority, final.toSend priority = [] := by
  intro always
  have queued : ∃ ledger, (Ledger.new 0 false).step storedBlocks (.queueMessage fullMessage 1) = some ledger ∧
      Starved ledger.state ∧ ledger.state.lastAckSendTime = 0 := by
    unfold Ledger.step
    dsimp only
    rw [fullMessage_queued]
    exact ⟨_,rfl,⟨rfl,⟨_,rfl,rfl,List.length_replicate⟩,rfl,rfl⟩,rfl⟩
  obtain ⟨ledger,first,starved,fresh⟩ := queued
  obtain ⟨count,steps,final,repeated,times,empty⟩ := always storedBlocks _ ledger
    (fun call => call * ackKeepAlive) (.call first .stop) (fun call => Nat.mul_le_mul_right _ (Nat.le_succ call))
  obtain ⟨msg,waits,_⟩ := (starved_run repeated starved times (by omega)).second
  rw [empty 1] at waits
  cases waits

end Starved

end NwNetwork.Carrier
