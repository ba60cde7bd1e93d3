import NwNetwork.CarrierSendQueue
import NwNetwork.CarrierIncoming

namespace NwNetwork.Carrier
open WireReader Serialize

-- How often a frame lies in the lists of an array with one list a priority.
def copies (frame : MessageData) (array : PerPriority (List MessageData)) : Nat :=
  (priorities.map fun priority => (array priority).count frame).sum

def inFlight (frame : MessageData) (dgrams : List DatagramData) : Nat :=
  (dgrams.map fun dgram => copies frame dgram.toResend).sum

-- The places a frame is in: the send queues and the resend lists of the datagrams
-- in flight.
def places (frame : MessageData) (state : ConnectionState) : Nat :=
  copies frame state.toSend + inFlight frame state.sendDatagrams

section Count
variable {frame : MessageData}

@[simp] theorem inFlight_nil : inFlight frame [] = 0 := rfl

@[simp] theorem inFlight_cons (dgram : DatagramData) (dgrams : List DatagramData) :
    inFlight frame (dgram :: dgrams) = copies frame dgram.toResend + inFlight frame dgrams := rfl

@[simp] theorem inFlight_append (first second : List DatagramData) :
    inFlight frame (first ++ second) = inFlight frame first + inFlight frame second := by
  simp [inFlight]

theorem inFlight_split (frame : MessageData) (pick : DatagramData → Bool) (dgrams : List DatagramData) :
    inFlight frame dgrams = inFlight frame (dgrams.filter fun dgram => !pick dgram) +
      inFlight frame (dgrams.filter pick) := by
  induction dgrams with
  | nil => rfl
  | cons dgram dgrams ih =>
    cases chosen : pick dgram <;> simp [chosen,ih] <;> omega

theorem priority_cases (priority : Priority) : priority = 0 ∨ priority = 1 ∨ priority = 2 ∨ priority = 3 := by
  revert priority
  decide

theorem copies_four (array : PerPriority (List MessageData)) :
    copies frame array = (array 0).count frame + (array 1).count frame + (array 2).count frame +
      (array 3).count frame := by
  simp [copies,priorities]
  omega

theorem copies_join (first second : PerPriority (List MessageData)) :
    copies frame (fun priority => first priority ++ second priority) =
      copies frame first + copies frame second := by
  simp only [copies_four,List.count_append]
  omega

theorem copies_push (array : PerPriority (List MessageData)) (priority : Priority) (msgs : List MessageData) :
    copies frame (array.set priority (array priority ++ msgs)) = copies frame array + msgs.count frame := by
  have one : ∀ other : Priority, ((array.set priority (array priority ++ msgs)) other).count frame =
      (array other).count frame + if other = priority then msgs.count frame else 0 := by
    intro other
    by_cases same : other = priority
    · subst same
      simp
    · simp [same]
  simp only [copies_four,one]
  rcases priority_cases priority with rfl | rfl | rfl | rfl <;> simp <;> omega

theorem copies_empty (empty : copies frame array = 0) (priority : Priority) : frame ∉ array priority := by
  rw [copies_four] at empty
  rw [←List.count_eq_zero]
  rcases priority_cases priority with rfl | rfl | rfl | rfl <;> omega

end Count

-- Queueing.

-- What a step has put behind the messages that were queued before it.
def appendedMessages (before after : PerPriority (List MessageData)) : List MessageData :=
  priorities.flatMap fun priority => (after priority).drop (before priority).length

section Steps
variable {lz4 : Lz4} {state after queued : ConnectionState} {frame : MessageData}

theorem appended_set (toSend : PerPriority (List MessageData)) (priority : Priority) (more : List MessageData) :
    appendedMessages toSend (toSend.set priority (toSend priority ++ more)) = more := by
  have one : ∀ other : Priority, ((toSend.set priority (toSend priority ++ more)) other).drop (toSend other).length =
      if other = priority then more else [] := by
    intro other
    by_cases same : other = priority
    · subst same
      simp
    · simp [same]
  simp only [appendedMessages,priorities,List.flatMap_cons,List.flatMap_nil,one]
  rcases priority_cases priority with rfl | rfl | rfl | rfl <;> simp

theorem appended_none (toSend : PerPriority (List MessageData)) : appendedMessages toSend toSend = [] := by
  simp [appendedMessages]

theorem queueMessage_places (ran : state.queueMessage message priority = some after) (frame : MessageData) :
    places frame after = places frame state + (appendedMessages state.toSend after.toSend).count frame := by
  rcases ConnectionState.queueMessage_appends ran with ⟨_,rfl⟩ | ⟨_,_,frames,_,appends⟩
  · rw [appended_none]
    rfl
  · have datagrams : after.sendDatagrams = state.sendDatagrams := by rw [appends.others]
    rw [appends.queues,appended_set]
    unfold places
    rw [appends.queues,copies_push,datagrams]
    omega

theorem queueAcks_datagrams (ran : state.queueAcks now = some queued) :
    queued.sendDatagrams = state.sendDatagrams := by
  rcases ConnectionState.queueAcks_cases ran with ⟨_,rfl⟩ | ⟨_,_,_,_,_,_,_,_,_,same⟩
  · rfl
  · rw [same]

theorem queueAcks_places (ran : state.queueAcks now = some queued) (reliable : frame.reliability = .reliable) :
    places frame queued = places frame state := by
  rcases ConnectionState.queueAcks_cases ran with ⟨_,rfl⟩ | ⟨_,_,_,_,ack,_,kind,_,_,same⟩
  · rfl
  · have absent : [ack].count frame = 0 := by
      refine List.count_eq_zero.mpr ?_
      intro present
      rw [List.mem_singleton.mp present,kind] at reliable
      cases reliable
    rw [same]
    unfold places
    dsimp only
    rw [copies_push,absent,Nat.add_zero]

-- The fill loop moves a reliable frame from its queue to the resend list of the
-- same priority.
theorem filled_copies (filled : Filled maxDatagramSize queues filling popped left final)
    (reliable : frame.reliability = .reliable) :
    (queues.map fun queue => queue.2.count frame).sum + copies frame filling.dgramData.toResend =
      (left.map fun queue => queue.2.count frame).sum + copies frame final.dgramData.toResend := by
  induction filled with
  | done => rfl
  | next _ ih => simpa using ih
  | takes _ _ _ ih =>
    rename_i priority queue queues popped rest left final msg filling _ _ _
    have tracked : copies frame (filling.write priority msg).dgramData.toResend =
        copies frame filling.dgramData.toResend + [msg].count frame := by
      unfold Filling.write Filling.track
      by_cases kind : msg.reliability = .reliable
      · simp only [if_pos kind]
        exact copies_push _ _ _
      · have other : [msg].count frame = 0 := by
          refine List.count_eq_zero.mpr ?_
          intro present
          rw [List.mem_singleton.mp present] at reliable
          exact kind reliable
        simp only [if_neg kind,other]
        rfl
    rw [tracked] at ih
    simp only [List.map_cons,List.sum_cons] at ih ⊢
    have first : (msg :: queue).count frame = queue.count frame + [msg].count frame := by
      rw [List.count_cons,List.count_cons,List.count_nil,Nat.zero_add]
    omega
  | leaves _ _ _ ih =>
    simp only [List.map_cons,List.sum_cons] at ih ⊢
    have same := ih
    unfold Filling.look at same
    dsimp only at same
    omega

theorem filled_silent (filled : Filled maxDatagramSize queues filling popped left final)
    (silent : final.payloadBuffer = []) : popped = [] := by
  induction filled with
  | done => rfl
  | next _ ih => exact ih silent
  | takes _ _ filled _ =>
    refine absurd silent (payload_grows filled ?_)
    exact fun empty => by simp [Filling.write,writeMessageHeader,writeU8] at empty
  | leaves _ _ _ ih => exact ih silent

theorem filled_idle (filled : Filled maxDatagramSize queues filling [] left final) :
    final.dgramData = filling.dgramData ∧ final.payloadBuffer = filling.payloadBuffer := by
  generalize none_popped : ([] : List Popped) = popped at filled
  induction filled with
  | done => exact ⟨rfl,rfl⟩
  | next _ ih => exact ih none_popped
  | takes => cases none_popped
  | leaves _ _ _ ih => exact ih none_popped

theorem copies_queues (array : PerPriority (List MessageData)) :
    ((priorities.map fun priority => (priority,array priority)).map fun queue => queue.2.count frame).sum =
      copies frame array := rfl

theorem copies_new : copies frame (DatagramData.new seq now).toResend = 0 := rfl

theorem generate_places (ran : queued.generateDatagram lz4 now maxDatagramSize = some (result,after))
    (reliable : frame.reliability = .reliable) : places frame after = places frame queued := by
  rcases generateDatagram_cases ran with ⟨popped,final,filled,_,_,same⟩ | ⟨popped,final,filled,silent,_,same⟩ | ⟨_,rfl⟩
  · have moved := filled_copies filled reliable
    have datagrams : after.sendDatagrams = queued.sendDatagrams ++ [final.dgramData] := by rw [same]
    rw [copies_queues,copies_queues,copies_new] at moved
    unfold places
    rw [datagrams,inFlight_append,inFlight_cons,inFlight_nil]
    omega
  · have moved := filled_copies filled reliable
    cases filled_silent filled silent
    have datagrams : after.sendDatagrams = queued.sendDatagrams := by rw [same]
    rw [(filled_idle filled).1,copies_queues,copies_queues] at moved
    unfold places
    rw [datagrams]
    omega
  · rfl

-- Acknowledging.

-- The acknowledgements that a call takes in, in order, until a message ends it.
def acksIn : List (UInt8 × MessageData) → List AckData
  | [] => []
  | (channel,msg) :: rest =>
    if channel = systemChannel then
      match msg.data.getLast? with
      | none => []
      | some msgId =>
        if msgId = SystemMessage.ctAcks then (readAckDataFrame msg.data.dropLast).toList ++ acksIn rest
        else acksIn rest
    else acksIn rest

def acksOfDatagram (lz4 : Lz4) (data : Bytes) (state : ConnectionState) : List AckData :=
  match decodeDatagram lz4 data with
  | .error _ => []
  | .ok decoded =>
    match state.receivedDatagramsHistory.insert decoded.header.sequenceNumber with
    | some (true,_) => acksIn (decoded.frames.foldl Reassembler.accept state.reassembler).drain.1
    | _ => []

def acknowledges (acks : List AckData) (seq : SequenceNumber) : Bool := acks.any fun ackData => ackData.isAcked seq

-- A negative acknowledgement changes no more than a time, so the datagrams are
-- followed by number and content.
abbrev Record := SequenceNumber × PerPriority (List MessageData)

def records (dgrams : List DatagramData) : List Record :=
  dgrams.map fun dgram => (dgram.sequenceNumber,dgram.toResend)

theorem inFlight_records (dgrams : List DatagramData) :
    inFlight frame dgrams = ((records dgrams).map fun record => copies frame record.2).sum := by
  simp [inFlight,records,Function.comp_def]

theorem nackDatagram_records (seq : SequenceNumber) (dgrams : List DatagramData) :
    records (ConnectionState.nackDatagram seq dgrams) = records dgrams := by
  induction dgrams with
  | nil => rfl
  | cons dgram dgrams ih =>
    unfold ConnectionState.nackDatagram
    split
    · rfl
    · exact congrArg (List.cons _) ih

theorem nacked_records (nacked : List SequenceNumber) (dgrams : List DatagramData) :
    records (nacked.foldl (fun dgrams seq => ConnectionState.nackDatagram seq dgrams) dgrams) = records dgrams := by
  induction nacked generalizing dgrams with
  | nil => rfl
  | cons seq nacked ih => rw [List.foldl_cons,ih,nackDatagram_records]

theorem records_filter (keep : SequenceNumber → Bool) (dgrams : List DatagramData) :
    records (dgrams.filter fun dgram => keep dgram.sequenceNumber) =
      (records dgrams).filter fun record => keep record.1 := by
  unfold records
  rw [List.filter_map]
  rfl

theorem readAckData_records (state : ConnectionState) (buffer : Bytes) :
    records (state.readAckData buffer).sendDatagrams = (records state.sendDatagrams).filter fun record =>
      !acknowledges (readAckDataFrame buffer).toList record.1 := by
  unfold ConnectionState.readAckData
  cases readAckDataFrame buffer with
  | none => simp [acknowledges]
  | some ackData =>
    simp only [ConnectionState.applyAckDataToSendQueue]
    rw [nacked_records,records_filter fun seq => !ackData.isAcked seq]
    simp [acknowledges]

theorem route_records (state : ConnectionState) (delivered : List (UInt8 × MessageData)) :
    records (state.route delivered).2.sendDatagrams =
        ((records state.sendDatagrams).filter fun record => !acknowledges (acksIn delivered) record.1) ∧
      (state.route delivered).2.toSend = state.toSend := by
  induction delivered generalizing state with
  | nil => simp [ConnectionState.route,acksIn,acknowledges]
  | cons head rest ih =>
    obtain ⟨channel,msg⟩ := head
    unfold ConnectionState.route acksIn
    by_cases system : channel = systemChannel
    · rw [if_pos system,if_pos system]
      unfold ConnectionState.processSystemMessage
      cases msg.data.getLast? with
      | none => simp [acknowledges]
      | some msgId =>
        dsimp only
        by_cases carrier : SystemMessage.ctFirst < msgId
        · by_cases acks : msgId = SystemMessage.ctAcks
          · rw [if_pos carrier,if_pos acks,if_pos acks]
            obtain ⟨kept,queues⟩ := ih (state.readAckData msg.data.dropLast)
            have same : (state.readAckData msg.data.dropLast).toSend = state.toSend := by
              unfold ConnectionState.readAckData
              split <;> rfl
            refine ⟨?_,queues.trans same⟩
            dsimp only
            rw [kept,readAckData_records,List.filter_filter]
            refine List.filter_congr ?_
            intro record _
            simp only [acknowledges,List.any_append,Bool.not_or]
            exact Bool.and_comm _ _
          · rw [if_pos carrier,if_neg acks,if_neg acks]
            exact ih state
        · have other : msgId ≠ SystemMessage.ctAcks := by
            intro acks
            rw [acks] at carrier
            exact carrier (by decide)
          rw [if_neg carrier,if_neg other]
          exact ih (state.toInbox channel msg)
    · rw [if_neg system,if_neg system]
      exact ih (state.toInbox channel msg)

theorem incoming_records (ran : state.processIncomingDatagram lz4 data = some (result,after)) :
    records after.sendDatagrams = ((records state.sendDatagrams).filter fun record =>
        !acknowledges (acksOfDatagram lz4 data state) record.1) ∧
      after.toSend = state.toSend := by
  unfold acksOfDatagram
  rcases incoming_cases ran with ⟨_,opened,_,rfl⟩ | ⟨decoded,fresh,_,opened,insert,⟨rfl,_,rfl⟩ | ⟨rfl,routed⟩⟩
  · rw [opened]
    simp [acknowledges]
  · rw [opened]
    dsimp only
    rw [insert]
    simp [acknowledges]
  · rw [opened]
    dsimp only
    rw [insert]
    obtain rfl : after = _ := congrArg Prod.snd routed
    exact route_records _ _

-- Resending.

theorem requeue_copies (toSend : PerPriority (List MessageData)) (dgram : DatagramData) :
    copies frame (ConnectionState.requeue toSend dgram) =
      copies frame toSend + if 0 < dgram.resendDataSize.toNat then copies frame dgram.toResend else 0 := by
  unfold ConnectionState.requeue
  split
  · rw [copies_join]
    exact Nat.add_comm _ _
  · rfl

-- The datagrams that are dropped with what they carry.
def dropped (now : Nat) (dgrams : List DatagramData) : List DatagramData :=
  (dgrams.takeWhile (ConnectionState.expired now)).filter fun dgram => !decide (0 < dgram.resendDataSize.toNat)

theorem resendFrom_copies (frame : MessageData) (now : Nat) (dgrams : List DatagramData) (toSend : PerPriority (List MessageData)) :
    copies frame (ConnectionState.resendFrom now dgrams toSend).2.2 +
        inFlight frame (ConnectionState.resendFrom now dgrams toSend).2.1 + inFlight frame (dropped now dgrams) =
      copies frame toSend + inFlight frame dgrams := by
  induction dgrams generalizing toSend with
  | nil => rfl
  | cons dgram rest ih =>
    unfold ConnectionState.resendFrom dropped
    by_cases old : ConnectionState.expired now dgram = true
    · have moved := ih (ConnectionState.requeue toSend dgram)
      unfold dropped at moved
      rw [requeue_copies] at moved
      rw [if_pos old,List.takeWhile_cons_of_pos old,inFlight_cons]
      rcases resent : ConnectionState.resendFrom now rest (ConnectionState.requeue toSend dgram) with ⟨count,left,queues⟩
      rw [resent] at moved
      dsimp only at moved ⊢
      by_cases counted : 0 < dgram.resendDataSize.toNat
      · rw [if_pos counted] at moved
        rw [List.filter_cons_of_neg (by simp only [counted,decide_true,Bool.not_true,Bool.false_eq_true,not_false_iff])]
        omega
      · rw [if_neg counted] at moved
        rw [List.filter_cons_of_pos (by simp only [counted,decide_false,Bool.not_false]),inFlight_cons]
        omega
    · rw [if_neg old,List.takeWhile_cons_of_neg old]
      rfl

theorem resendFrom_sublist (now : Nat) (dgrams : List DatagramData) (toSend : PerPriority (List MessageData)) :
    (ConnectionState.resendFrom now dgrams toSend).2.1.Sublist dgrams := by
  induction dgrams generalizing toSend with
  | nil => exact .slnil
  | cons dgram rest ih =>
    unfold ConnectionState.resendFrom
    split
    · exact .cons _ (ih _)
    · exact List.Sublist.refl _

end Steps

-- A connection next to what was ever queued on it and the datagrams that were
-- acknowledged.
structure Ledger where
  state : ConnectionState
  queued : List MessageData
  acked : List DatagramData

def Ledger.new (now : Nat) (sendCompressed : Bool) : Ledger := ⟨ConnectionState.new now sendCompressed,[],[]⟩

inductive ConnectionCall where
  | queueMessage (message : MessageData) (priority : Nat)
  | prepareOutgoingDatagram (now maxDatagramSize : Nat)
  | processIncomingDatagram (data : Bytes)
  | processResends (now : Nat)

-- `none` is a panic or a hang of the call.
def Ledger.step (lz4 : Lz4) (ledger : Ledger) : ConnectionCall → Option Ledger
  | .queueMessage message priority => do
    let after ← ledger.state.queueMessage message priority
    some { ledger with
      state := after, queued := ledger.queued ++ appendedMessages ledger.state.toSend after.toSend }
  | .prepareOutgoingDatagram now maxDatagramSize => do
    let (_,after) ← ledger.state.prepareOutgoingDatagram lz4 now maxDatagramSize
    some { ledger with state := after }
  | .processIncomingDatagram data => do
    let (_,after) ← ledger.state.processIncomingDatagram lz4 data
    let acks := acksOfDatagram lz4 data ledger.state
    some { ledger with
      state := after
      acked := ledger.acked ++ ledger.state.sendDatagrams.filter fun dgram => acknowledges acks dgram.sequenceNumber }
  | .processResends now => some { ledger with state := (ledger.state.processResends now).2 }

-- A run with the ledger before every call.
inductive LedgerRun (lz4 : Lz4) : Ledger → List (Ledger × ConnectionCall) → Ledger → Prop where
  | stop : LedgerRun lz4 ledger [] ledger
  | call : ledger.step lz4 call = some middle → LedgerRun lz4 middle steps final →
      LedgerRun lz4 ledger ((ledger,call) :: steps) final

-- Each queued copy of a reliable frame is in one place or acknowledged.
def Conserved (ledger : Ledger) : Prop :=
  ∀ frame, frame.reliability = .reliable →
    places frame ledger.state + inFlight frame ledger.acked = ledger.queued.count frame

-- A resend drops no datagram that keeps frames: each one that has expired has a
-- data counter other than zero or an empty resend list.
def DropsNothing : Ledger × ConnectionCall → Prop
  | (ledger,.processResends now) =>
    ∀ dgram ∈ ledger.state.sendDatagrams.takeWhile (ConnectionState.expired now),
      0 < dgram.resendDataSize.toNat ∨ ∀ priority, dgram.toResend priority = []
  | _ => True

def droppedBy : Ledger × ConnectionCall → List DatagramData
  | (ledger,.processResends now) => dropped now ledger.state.sendDatagrams
  | _ => []

def KeepsReliable (dgrams : List DatagramData) : Prop :=
  ∀ dgram ∈ dgrams, ∀ priority, ∀ frame ∈ dgram.toResend priority, frame.reliability = .reliable

-- The same for any property of the frames that wait for a resend.
def Keeps (good : MessageData → Prop) (dgrams : List DatagramData) : Prop :=
  ∀ dgram ∈ dgrams, ∀ priority, ∀ frame ∈ dgram.toResend priority, good frame

section Run
variable {lz4 : Lz4} {ledger middle final : Ledger} {frame : MessageData} {good : MessageData → Prop}

theorem step_balance (ran : ledger.step lz4 call = some final) (reliable : frame.reliability = .reliable) :
    places frame final.state + inFlight frame final.acked + inFlight frame (droppedBy (ledger,call)) +
        ledger.queued.count frame =
      places frame ledger.state + inFlight frame ledger.acked + final.queued.count frame := by
  cases call with
  | queueMessage message priority =>
    obtain ⟨after,queue,same⟩ := Option.bind_eq_some_iff.mp ran
    cases Option.some.inj same
    have counted := queueMessage_places queue frame
    simp only [droppedBy,inFlight_nil,List.count_append]
    omega
  | prepareOutgoingDatagram now maxDatagramSize =>
    obtain ⟨⟨result,after⟩,prepare,same⟩ := Option.bind_eq_some_iff.mp ran
    cases Option.some.inj same
    obtain ⟨queued,acks,generate⟩ := Option.bind_eq_some_iff.mp prepare
    have counted := generate_places generate reliable
    rw [queueAcks_places acks reliable] at counted
    simp only [droppedBy,inFlight_nil]
    omega
  | processIncomingDatagram data =>
    obtain ⟨⟨result,after⟩,incoming,same⟩ := Option.bind_eq_some_iff.mp ran
    cases Option.some.inj same
    obtain ⟨kept,queues⟩ := incoming_records incoming
    have flight : inFlight frame after.sendDatagrams = inFlight frame (ledger.state.sendDatagrams.filter fun dgram =>
        !acknowledges (acksOfDatagram lz4 data ledger.state) dgram.sequenceNumber) := by
      rw [inFlight_records,inFlight_records,kept,
        records_filter fun seq => !acknowledges (acksOfDatagram lz4 data ledger.state) seq]
    have split := inFlight_split frame
      (fun dgram => acknowledges (acksOfDatagram lz4 data ledger.state) dgram.sequenceNumber)
      ledger.state.sendDatagrams
    unfold places
    simp only [droppedBy,inFlight_nil,inFlight_append,queues,flight]
    omega
  | processResends now =>
    cases Option.some.inj ran
    have moved := resendFrom_copies frame now ledger.state.sendDatagrams ledger.state.toSend
    unfold places ConnectionState.processResends
    rcases resent : ConnectionState.resendFrom now ledger.state.sendDatagrams ledger.state.toSend with ⟨count,left,queues⟩
    rw [resent] at moved
    dsimp only [droppedBy] at moved ⊢
    omega

theorem run_balance (run : LedgerRun lz4 ledger steps final) (reliable : frame.reliability = .reliable) :
    places frame final.state + inFlight frame final.acked +
        (steps.map fun step => inFlight frame (droppedBy step)).sum + ledger.queued.count frame =
      places frame ledger.state + inFlight frame ledger.acked + final.queued.count frame := by
  induction run with
  | stop => simp
  | call ran _ ih =>
    have first := step_balance ran reliable
    rw [List.map_cons,List.sum_cons]
    omega

theorem filled_keeps (filled : Filled maxDatagramSize queues filling popped left result)
    (queued : ∀ queue ∈ queues, ∀ msg ∈ queue.2, msg.reliability = .reliable → good msg)
    (before : Keeps good [filling.dgramData]) : Keeps good [result.dgramData] := by
  induction filled with
  | done => exact before
  | next _ ih => exact ih (fun queue later => queued queue (List.mem_cons_of_mem _ later)) before
  | leaves _ _ _ ih => exact ih (fun queue later => queued queue (List.mem_cons_of_mem _ later)) before
  | takes _ _ _ ih =>
    rename_i priority waiting queues _ _ _ _ msg filling _ _ _
    refine ih ?_ ?_
    · intro queue present other among
      rcases List.mem_cons.mp present with rfl | later
      · exact queued (priority,msg :: waiting) List.mem_cons_self other (List.mem_cons_of_mem _ among)
      · exact queued queue (List.mem_cons_of_mem _ later) other among
    · intro dgram present other frame among
      cases List.mem_singleton.mp present
      have old := before filling.dgramData List.mem_cons_self other frame
      unfold Filling.write Filling.track at among
      by_cases kind : msg.reliability = .reliable
      · simp only [if_pos kind] at among
        by_cases same : other = priority
        · subst same
          rw [PerPriority.set_same] at among
          rcases List.mem_append.mp among with kept | added
          · exact old kept
          · rw [List.mem_singleton.mp added]
            exact queued _ List.mem_cons_self msg List.mem_cons_self kind
        · rw [PerPriority.set_other _ _ same] at among
          exact old among
      · simp only [if_neg kind] at among
        exact old among

theorem records_keep {first second : List DatagramData}
    (within : ∀ record ∈ records second, record ∈ records first) (before : Keeps good first) :
    Keeps good second := by
  intro dgram present
  have known : (dgram.sequenceNumber,dgram.toResend) ∈ records second := List.mem_map_of_mem present
  obtain ⟨other,among,same⟩ := List.mem_map.mp (within _ known)
  have content := congrArg Prod.snd same
  dsimp only at content
  rw [←content]
  exact before other among

-- Only a datagram that is written brings frames into the resend lists, and they
-- come from the queues.
theorem step_keeps (ran : ledger.step lz4 call = some final) (before : Keeps good ledger.state.sendDatagrams)
    (queues : ∀ now queued, ledger.state.queueAcks now = some queued →
      ∀ priority, ∀ msg ∈ queued.toSend priority, msg.reliability = .reliable → good msg) :
    Keeps good final.state.sendDatagrams := by
  cases call with
  | queueMessage message priority =>
    obtain ⟨after,queue,same⟩ := Option.bind_eq_some_iff.mp ran
    cases Option.some.inj same
    rcases ConnectionState.queueMessage_appends queue with ⟨_,refused⟩ | ⟨_,_,frames,_,appends⟩
    · dsimp only
      rw [refused]
      exact before
    · dsimp only
      rw [appends.others]
      exact before
  | prepareOutgoingDatagram now maxDatagramSize =>
    obtain ⟨⟨result,after⟩,prepare,same⟩ := Option.bind_eq_some_iff.mp ran
    cases Option.some.inj same
    obtain ⟨queued,acks,generate⟩ := Option.bind_eq_some_iff.mp prepare
    have held : Keeps good queued.sendDatagrams := by
      rw [queueAcks_datagrams acks]
      exact before
    rcases generateDatagram_cases generate with ⟨_,filling,filled,_,_,whole⟩ | ⟨_,_,_,_,_,whole⟩ | ⟨_,whole⟩
    · have datagrams : after.sendDatagrams = queued.sendDatagrams ++ [filling.dgramData] := by rw [whole]
      have added : Keeps good [filling.dgramData] := by
        refine filled_keeps filled ?_ ?_
        · intro queue present
          obtain ⟨priority,_,rfl⟩ := List.mem_map.mp present
          exact queues now queued acks priority
        · intro dgram present priority frame among
          cases List.mem_singleton.mp present
          exact absurd among List.not_mem_nil
      dsimp only
      rw [datagrams]
      intro dgram present
      rcases List.mem_append.mp present with old | new
      · exact held dgram old
      · exact added dgram new
    · dsimp only
      rw [whole]
      exact held
    · dsimp only
      rw [whole]
      exact held
  | processIncomingDatagram data =>
    obtain ⟨⟨result,after⟩,incoming,same⟩ := Option.bind_eq_some_iff.mp ran
    cases Option.some.inj same
    refine records_keep ?_ before
    intro record present
    dsimp only at present
    rw [(incoming_records incoming).1] at present
    exact (List.mem_filter.mp present).1
  | processResends now =>
    cases Option.some.inj ran
    intro dgram present
    exact before dgram ((resendFrom_sublist now _ _).subset present)

theorem step_reliable (ran : ledger.step lz4 call = some final)
    (before : KeepsReliable ledger.state.sendDatagrams) : KeepsReliable final.state.sendDatagrams := by
  have kept : Keeps (fun frame => frame.reliability = .reliable) final.state.sendDatagrams :=
    step_keeps ran before fun _ _ _ _ _ _ reliable => reliable
  exact kept

theorem run_reliable (run : LedgerRun lz4 ledger steps final)
    (before : KeepsReliable ledger.state.sendDatagrams) :
    ∀ step ∈ steps, KeepsReliable step.1.state.sendDatagrams := by
  induction run with
  | stop => exact fun _ present => absurd present List.not_mem_nil
  | call ran _ ih =>
    intro step present
    rcases List.mem_cons.mp present with rfl | later
    · exact before
    · exact ih (step_reliable ran before) step later

-- Nothing is lost exactly when no dropped datagram keeps a reliable frame.
theorem dropsNothing_iff {step : Ledger × ConnectionCall} (kept : KeepsReliable step.1.state.sendDatagrams) :
    DropsNothing step ↔ ∀ frame, frame.reliability = .reliable → inFlight frame (droppedBy step) = 0 := by
  obtain ⟨ledger,call⟩ := step
  cases call with
  | queueMessage | prepareOutgoingDatagram | processIncomingDatagram => simp [DropsNothing,droppedBy]
  | processResends now =>
    simp only [DropsNothing,droppedBy,dropped]
    constructor
    · intro sound frame _
      refine List.sum_eq_zero_iff_forall_eq_nat.mpr ?_
      intro count present
      obtain ⟨dgram,among,rfl⟩ := List.mem_map.mp present
      obtain ⟨old,uncounted⟩ := List.mem_filter.mp among
      rcases sound dgram old with counted | empty
      · simp [counted] at uncounted
      · simp [copies,empty,priorities]
    · intro nothing dgram old
      by_cases counted : 0 < dgram.resendDataSize.toNat
      · exact .inl counted
      · refine .inr ?_
        intro priority
        refine List.eq_nil_iff_forall_not_mem.mpr ?_
        intro frame present
        have reliable := kept dgram ((List.takeWhile_sublist _).subset old) priority frame present
        have zero := nothing frame reliable
        have among : dgram ∈ (ledger.state.sendDatagrams.takeWhile (ConnectionState.expired now)).filter
            fun dgram => !decide (0 < dgram.resendDataSize.toNat) :=
          List.mem_filter.mpr ⟨old,by simpa using counted⟩
        have none_here : copies frame dgram.toResend = 0 :=
          List.sum_eq_zero_iff_forall_eq_nat.mp zero _ (List.mem_map_of_mem among)
        exact copies_empty none_here priority present

end Run

theorem reliable_conservation {lz4 : Lz4} {final : Ledger}
    (run : LedgerRun lz4 (Ledger.new now sendCompressed) steps final) :
    Conserved final ↔ ∀ step ∈ steps, DropsNothing step := by
  have fresh : KeepsReliable (Ledger.new now sendCompressed).state.sendDatagrams :=
    fun _ present => absurd present List.not_mem_nil
  have kept := run_reliable run fresh
  have balance : ∀ frame, frame.reliability = .reliable → places frame final.state + inFlight frame final.acked +
      (steps.map fun step => inFlight frame (droppedBy step)).sum = final.queued.count frame := by
    intro frame reliable
    have all := run_balance run reliable
    have none_yet : places frame (Ledger.new now sendCompressed).state +
        inFlight frame (Ledger.new now sendCompressed).acked = 0 := rfl
    have unqueued : (Ledger.new now sendCompressed).queued.count frame = 0 := rfl
    omega
  constructor
  · intro conserved step present
    refine (dropsNothing_iff (kept step present)).mpr ?_
    intro frame reliable
    have zero : (steps.map fun step => inFlight frame (droppedBy step)).sum = 0 := by
      have whole := balance frame reliable
      have exact_count := conserved frame reliable
      omega
    exact List.sum_eq_zero_iff_forall_eq_nat.mp zero _ (List.mem_map_of_mem present)
  · intro sound frame reliable
    have zero : (steps.map fun step => inFlight frame (droppedBy step)).sum = 0 := by
      refine List.sum_eq_zero_iff_forall_eq_nat.mpr ?_
      intro count present
      obtain ⟨step,among,rfl⟩ := List.mem_map.mp present
      exact (dropsNothing_iff (kept step among)).mp (sound step among) frame reliable
    have whole := balance frame reliable
    omega

-- One reliable message through a datagram, a timeout and a second datagram.
def resentCalls (data : Bytes) : List ConnectionCall :=
  [.queueMessage (userMessage 0 .reliable data) 1,.prepareOutgoingDatagram 0 1024,
    .processResends (lostPacketTimeout + 1)]

def userFrame (data : Bytes) : MessageData :=
  { userMessage 0 .reliable data with numChunks := 1, sequenceNumber := 0, sendReliableSeqNum := 0 }

theorem reliable_conservation_resent : ∃ steps final,
    LedgerRun storedBlocks (Ledger.new 0 false) steps final ∧ steps.map (·.2) = resentCalls [7] ∧
      places (userFrame [7]) final.state = 1 ∧ (Conserved final ↔ ∀ step ∈ steps, DropsNothing step) := by
  have run : ∃ steps final, LedgerRun storedBlocks (Ledger.new 0 false) steps final ∧
      steps.map (·.2) = resentCalls [7] ∧ places (userFrame [7]) final.state = 1 :=
    ⟨_,_,.call rfl (.call rfl (.call rfl .stop)),rfl,by decide⟩
  obtain ⟨steps,final,ran,calls,once⟩ := run
  exact ⟨steps,final,ran,calls,once,reliable_conservation ran⟩

theorem zero_length_message_dropped :
    ¬∀ (lz4 : Lz4) (now : Nat) (sendCompressed : Bool) (steps : List (Ledger × ConnectionCall)) (final : Ledger),
      LedgerRun lz4 (Ledger.new now sendCompressed) steps final → Conserved final := by
  intro always
  have run : ∃ steps final, LedgerRun storedBlocks (Ledger.new 0 false) steps final ∧
      places (userFrame []) final.state + inFlight (userFrame []) final.acked = 0 ∧
      final.queued.count (userFrame []) = 1 ∧ steps.map (·.2) = resentCalls [] :=
    ⟨_,_,.call rfl (.call rfl (.call rfl .stop)),by decide,by decide,rfl⟩
  obtain ⟨steps,final,ran,nowhere,once,_⟩ := run
  have conserved := always storedBlocks 0 false steps final ran (userFrame []) rfl
  omega

end NwNetwork.Carrier
