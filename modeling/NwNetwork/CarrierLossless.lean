import NwNetwork.CarrierReliableDelivery
import NwNetwork.CarrierReceiver
import NwNetwork.CarrierSendQueue
import NwNetwork.CarrierFrameRoundTrip

namespace NwNetwork.Carrier
open WireReader Serialize

-- A call of `queue_message`: the message and its priority.
abbrev QueueCall := MessageData × Nat

def queueOf (call : QueueCall) : Priority := queueIndex call.2

-- The acknowledgement that a call of `prepare_outgoing_datagram` queues.
def ConnectionState.acksOf (now : Nat) (state : ConnectionState) : List QueueCall :=
  if state.ackDue now then
    (state.writeAckData.map fun written => (ConnectionState.ackMessage state.isConnecting written.1,0)).toList
  else []

-- One call that sends a datagram.
structure SendStep where
  now : Nat
  acks : List QueueCall
  queued : ConnectionState
  after : ConnectionState
  datagram : Bytes

def SendStep.popped (step : SendStep) : List Popped := poppedMessages step.queued.toSend step.after.toSend

-- `prepare_outgoing_datagram` again and again until there is nothing to send, at
-- whatever times.
inductive SendRun (lz4 : Lz4) (maxDatagramSize : Nat) :
    ConnectionState → List SendStep → ConnectionState → Prop where
  | stop : state.prepareOutgoingDatagram lz4 now maxDatagramSize = some (.ok none,after) →
      SendRun lz4 maxDatagramSize state [] after
  | sends : state.queueAcks now = some queued →
      queued.generateDatagram lz4 now maxDatagramSize = some (.ok (some datagram),after) →
      SendRun lz4 maxDatagramSize after steps final →
      SendRun lz4 maxDatagramSize state (⟨now,state.acksOf now,queued,after,datagram⟩ :: steps) final

-- The messages of a channel in the order in which they leave the sender.
def departures (channel : UInt8) (steps : List SendStep) : List Popped :=
  (steps.flatMap SendStep.popped).filter fun popped => popped.2.channel = channel

-- An order of departure that the receiver's gate lets through: a reliable message
-- leaves when the reliable frame with the number before it was the last one to
-- leave, its chunks leave together, and an unreliable message leaves while no
-- reliable one has left or right behind the one it was queued after.
inductive DepartsInTurn : SequenceNumber → List Popped → Prop where
  | done : DepartsInTurn last []
  | unreliable : frame.reliability = .unreliable →
      (last = sequenceNumberMax ∨ frame.sendReliableSeqNum = last) → DepartsInTurn last rest →
      DepartsInTurn last ((priority,frame) :: rest)
  | message : head.reliability = .reliable → head.sendReliableSeqNum = last + 1 →
      head.numChunks.toNat = (head :: tail).length →
      DepartsInTurn (lastNumber last (head :: tail)) rest →
      DepartsInTurn last ((head :: tail).map (fun frame => (priority,frame)) ++ rest)

-- Every call's bytes exactly once and, queue by queue, in the order of the calls.
def DeliversAll (calls : List QueueCall) (delivered : List Bytes) : Prop :=
  ∃ arranged : List QueueCall, delivered = arranged.map (fun call => call.1.data) ∧
    ∀ priority, arranged.filter (fun call => queueOf call = priority) =
      calls.filter (fun call => queueOf call = priority)

def fromQueue (priority : Priority) (popped : List Popped) : List MessageData :=
  (popped.filter fun one => one.1 = priority).map Prod.snd

@[simp] theorem fromQueue_append (priority : Priority) (first second : List Popped) :
    fromQueue priority (first ++ second) = fromQueue priority first ++ fromQueue priority second := by
  simp [fromQueue]

theorem fromQueue_same (priority : Priority) (msgs : List MessageData) :
    fromQueue priority (msgs.map fun msg => (priority,msg)) = msgs := by
  simp [fromQueue,List.filter_map,Function.comp_def]

theorem fromQueue_other (ne : other ≠ priority) (msgs : List MessageData) :
    fromQueue priority (msgs.map fun msg => (other,msg)) = [] := by
  simp [fromQueue,List.filter_map,Function.comp_def,ne]

section Gate
variable {channel : UInt8}

-- The frames of a queue cut into the units of the calls that queued them.
abbrev Units (calls : List QueueCall) (units : List (List MessageData)) : Prop :=
  List.Forall₂ (fun call frames => IsUnit call.1 frames) calls units

-- The first frame of a queue belongs to the first call that is not complete yet.
theorem units_cons (cut : Units calls units) (frames : units.flatten = head :: rest) :
    ∃ call calls' tail units', calls = call :: calls' ∧ units = (head :: tail) :: units' ∧
      UnitParts call.1 head tail ∧ Units calls' units' ∧ rest = tail ++ units'.flatten := by
  cases cut with
  | nil => cases frames
  | cons one others =>
    rename_i call unit calls units
    obtain ⟨first,tail,rfl,parts⟩ := one
    rw [List.flatten_cons,List.cons_append] at frames
    obtain ⟨rfl,rest⟩ := List.cons.inj frames
    exact ⟨call,calls,tail,units,rfl,rfl,parts,others,rest.symm⟩

theorem units_nil (cut : Units calls units) (frames : units.flatten = []) : calls = [] := by
  cases cut with
  | nil => rfl
  | cons one _ =>
    obtain ⟨_,_,rfl,_⟩ := one
    cases frames

-- Each queue on its own: the calls it still holds and their frames.
def Held (calls : Priority → List QueueCall) (frames : Priority → List MessageData) : Prop :=
  ∀ priority, (∀ call ∈ calls priority, queueOf call = priority) ∧
    ∃ units, Units (calls priority) units ∧ frames priority = units.flatten

-- The call of the unit that leaves next goes to the front of the arrangement.
theorem arrange_cons {calls : Priority → List QueueCall} (first : calls priority = call :: calls')
    (own : ∀ call ∈ calls priority, queueOf call = priority)
    (rest : ∀ other, arranged.filter (fun call => queueOf call = other) =
      (if other = priority then calls' else calls other)) (other : Priority) :
    (call :: arranged).filter (fun call => queueOf call = other) = calls other := by
  have tag : queueOf call = priority := own call (by rw [first]; exact List.mem_cons_self)
  by_cases same : other = priority
  · subst same
    have others := rest other
    rw [if_pos rfl] at others
    rw [List.filter_cons_of_pos (by simpa using tag),others,first]
  · have others := rest other
    rw [if_neg same] at others
    rw [List.filter_cons_of_neg (by simpa [tag] using Ne.symm same),others]

theorem held_next {calls : Priority → List QueueCall} {frames after : Priority → List MessageData}
    (held : Held calls frames) (first : calls priority = call :: calls')
    (cut : Units calls' units) (left : after priority = units.flatten)
    (others : ∀ other, other ≠ priority → after other = frames other) :
    Held (fun other => if other = priority then calls' else calls other) after := by
  intro other
  by_cases same : other = priority
  · subst same
    simp only [if_true]
    refine ⟨fun later present => (held other).1 later ?_,units,cut,left⟩
    rw [first]
    exact List.mem_cons_of_mem _ present
  · simp only [if_neg same]
    rw [others other same]
    exact held other

theorem departs_delivers (turn : DepartsInTurn last popped) {calls : Priority → List QueueCall}
    (held : Held calls (fun priority => fromQueue priority popped))
    (at_last : state.receivedReliableSeqNum = last) (queue : state.staging = popped.map Prod.snd) :
    ∃ arranged : List QueueCall,
      ((channelQueue channel).drain state).1.map (·.data) = arranged.map (fun call => call.1.data) ∧
      ∀ priority, arranged.filter (fun call => queueOf call = priority) = calls priority := by
  induction turn generalizing state calls with
  | done =>
    have stuck : state.nextReady channel = none := by
      simp only [List.map_nil] at queue
      simp [ChannelState.nextReady,queue]
    rw [(channelQueue channel).drain_stuck stuck]
    refine ⟨[],rfl,?_⟩
    intro priority
    obtain ⟨_,units,cut,frames⟩ := held priority
    exact (units_nil cut frames.symm).symm
  | unreliable unreliable free rest ih =>
    rename_i last popped priority frame
    subst at_last
    have ready := nextReady_free channel unreliable free queue
    obtain ⟨own,units,cut,frames⟩ := held priority
    obtain ⟨call,calls',tail,units',first,_,parts,cut',behind⟩ := units_cons cut
      (frames.symm.trans (show fromQueue priority ((priority,frame) :: popped) = frame :: fromQueue priority popped by
        simp [fromQueue]))
    have alone := parts.alone unreliable
    subst alone
    have stays : (deliverHead state frame (popped.map Prod.snd)).2.receivedReliableSeqNum =
        state.receivedReliableSeqNum := by simp [deliverHead,unreliable]
    obtain ⟨arranged,contents,order⟩ := ih
      (held_next held first cut' behind (fun other ne => by simp [fromQueue,Ne.symm ne])) stays rfl
    refine ⟨call :: arranged,?_,arrange_cons first own order⟩
    have data := parts.data
    rw [List.flatMap_singleton] at data
    rw [(channelQueue channel).drain_step ready]
    exact congrArg₂ List.cons data contents
  | message reliable number count rest ih =>
    rename_i last head tail popped priority
    subst at_last
    obtain ⟨own,units,cut,frames⟩ := held priority
    dsimp only at frames
    rw [fromQueue_append,fromQueue_same] at frames
    obtain ⟨call,calls',unitTail,units',first,_,parts,cut',behind⟩ := units_cons cut frames.symm
    have sizes : tail.length = unitTail.length := by
      have counted := parts.count
      rw [count] at counted
      simpa using counted
    obtain ⟨same,left⟩ := List.append_inj behind sizes
    subst same
    rw [List.map_append,List.map_map] at queue
    have front : (head :: tail).map (Prod.snd ∘ fun frame => (priority,frame)) = head :: tail := by
      simp [Function.comp_def]
    rw [front] at queue
    have follow : chunksFollow state.receivedReliableSeqNum (head :: tail) = true :=
      (chunksFollow_cons _ _ _).mpr ⟨reliable,number,parts.follow⟩
    obtain ⟨msg,next,ready,_,same,staged,reached⟩ := nextReady_run channel count follow queue
    obtain ⟨arranged,contents,order⟩ := ih
      (held_next held first cut' left (fun other ne => by
        rw [fromQueue_append,fromQueue_other (Ne.symm ne),List.nil_append])) reached staged
    refine ⟨call :: arranged,?_,arrange_cons first own order⟩
    rw [(channelQueue channel).drain_step ready,List.map_cons,List.map_cons,contents]
    have data : msg.data = (head :: tail).flatMap (·.data) := congrArg Prod.snd same
    rw [data,parts.data]

theorem units_member (cut : Units calls units) (present : unit ∈ units) : ∃ call : QueueCall, IsUnit call.1 unit := by
  induction cut with
  | nil => cases present
  | cons one _ ih =>
    rcases List.mem_cons.mp present with rfl | later
    · exact ⟨_,one⟩
    · exact ih later

-- The units of one channel are whole units.
theorem units_channel (cut : Units calls units) :
    ∃ kept, Units (calls.filter fun call => call.1.channel = channel) kept ∧
      framesOn channel units.flatten = kept.flatten := by
  induction cut with
  | nil => exact ⟨[],.nil,rfl⟩
  | cons one rest ih =>
    rename_i call unit calls units
    obtain ⟨kept,cut,frames⟩ := ih
    obtain ⟨head,tail,rfl,parts⟩ := one
    have split : framesOn channel ((head :: tail) :: units).flatten =
        framesOn channel (head :: tail) ++ framesOn channel units.flatten := List.filter_append _ _
    by_cases same : call.1.channel = channel
    · have all : framesOn channel (head :: tail) = head :: tail := by
        apply List.filter_eq_self.mpr
        intro frame present
        simpa [parts.ofChannel frame present] using same
      refine ⟨(head :: tail) :: kept,?_,?_⟩
      · rw [List.filter_cons_of_pos (by simpa using same)]
        exact .cons ⟨head,tail,rfl,parts⟩ cut
      · rw [split,all,frames,List.flatten_cons]
    · have none_of : framesOn channel (head :: tail) = [] := by
        apply List.filter_eq_nil_iff.mpr
        intro frame present
        simpa [parts.ofChannel frame present] using same
      refine ⟨kept,?_,?_⟩
      · rw [List.filter_cons_of_neg (by simpa using same)]
        exact cut
      · rw [split,none_of,frames,List.nil_append]

end Gate

section Backlog
variable {lz4 : Lz4} {state after queued : ConnectionState}

def callsOf (priority : Priority) (calls : List QueueCall) : List QueueCall :=
  calls.filter fun call => queueOf call = priority ∧ Accepted call.1

-- What has left a queue and what it still holds are the units of its calls.
def Backlog (departed : Priority → List MessageData) (state : ConnectionState) (calls : List QueueCall) : Prop :=
  ∀ priority, ∃ units, Units (callsOf priority calls) units ∧
    departed priority ++ state.toSend priority = units.flatten

theorem backlog_same (backlog : Backlog departed state calls) (same : after.toSend = state.toSend) :
    Backlog departed after calls := by
  intro priority
  rw [same]
  exact backlog priority

theorem backlog_call (backlog : Backlog departed state calls)
    (ran : state.queueMessage call.1 call.2 = some after) : Backlog departed after (calls ++ [call]) := by
  intro priority
  obtain ⟨units,cut,frames⟩ := backlog priority
  have split : callsOf priority (calls ++ [call]) = callsOf priority calls ++ callsOf priority [call] := by
    simp [callsOf]
  rcases ConnectionState.queueMessage_appends ran with ⟨refused,rfl⟩ | ⟨accepted,_,more,unit,appends⟩
  · have dropped : callsOf priority [call] = [] := by simp [callsOf,refused]
    rw [split,dropped,List.append_nil]
    exact ⟨units,cut,frames⟩
  · rw [split,appends.queues]
    by_cases same : priority = queueIndex call.2
    · subst same
      have taken : callsOf (queueIndex call.2) [call] = [call] := by simp [callsOf,queueOf,accepted]
      rw [taken,PerPriority.set_same]
      refine ⟨units ++ [more],List.rel_append cut (.cons unit .nil),?_⟩
      rw [←List.append_assoc,frames,List.flatten_append,List.flatten_singleton]
    · have other : callsOf priority [call] = [] := by simp [callsOf,queueOf,Ne.symm same]
      rw [other,List.append_nil,PerPriority.set_other _ _ same]
      exact ⟨units,cut,frames⟩

theorem backlog_calls (backlog : Backlog departed state calls) (ran : queueAll state more = some after) :
    Backlog departed after (calls ++ more) := by
  induction more generalizing state calls with
  | nil =>
    cases Option.some.inj ran
    rw [List.append_nil]
    exact backlog
  | cons call more ih =>
    obtain ⟨middle,first,rest⟩ := Option.bind_eq_some_iff.mp ran
    have later := ih (backlog_call backlog first) rest
    rwa [List.append_assoc] at later

theorem backlog_acks (backlog : Backlog departed state calls) (ran : state.queueAcks now = some queued) :
    Backlog departed queued (calls ++ state.acksOf now) := by
  unfold ConnectionState.queueAcks at ran
  unfold ConnectionState.acksOf
  split at ran
  · rename_i due
    rw [if_pos due]
    obtain ⟨⟨frame,noted⟩,written,rest⟩ := Option.bind_eq_some_iff.mp ran
    obtain ⟨middle,asked,last⟩ := Option.bind_eq_some_iff.mp rest
    obtain ⟨⟨_,_,_⟩,_,same⟩ := Option.bind_eq_some_iff.mp written
    cases Option.some.inj same
    cases Option.some.inj last
    rw [written]
    have one : Backlog departed middle
        (calls ++ [(ConnectionState.ackMessage state.isConnecting frame,0)]) := by
      refine backlog_call ?_ asked
      exact backlog_same backlog rfl
    exact backlog_same one rfl
  · rename_i idle
    cases Option.some.inj ran
    rw [if_neg idle,List.append_nil]
    exact backlog

theorem fromQueue_popped (before after : PerPriority (List MessageData)) (priority : Priority) :
    fromQueue priority (poppedMessages before after) = poppedFrom (before priority) (after priority) := by
  have cut : ∀ order : List Priority, order.Nodup →
      fromQueue priority (order.flatMap fun other =>
        (poppedFrom (before other) (after other)).map fun msg => (other,msg)) =
      if priority ∈ order then poppedFrom (before priority) (after priority) else [] := by
    intro order
    induction order with
    | nil => intro _; rfl
    | cons other order ih =>
      intro distinct
      obtain ⟨fresh,distinct⟩ := List.nodup_cons.mp distinct
      rw [List.flatMap_cons,fromQueue_append,ih distinct]
      by_cases same : other = priority
      · subst same
        rw [fromQueue_same,if_neg fresh,if_pos List.mem_cons_self,List.append_nil]
      · rw [fromQueue_other same,List.nil_append]
        simp [Ne.symm same]
  have known : ∀ priority : Priority, priority ∈ priorities := by decide
  rw [poppedMessages,cut priorities (by decide),if_pos (known priority)]

theorem generate_queues (ran : queued.generateDatagram lz4 now maxDatagramSize = some (result,after)) :
    ∀ priority, queued.toSend priority =
      fromQueue priority (poppedMessages queued.toSend after.toSend) ++ after.toSend priority := by
  intro priority
  rw [fromQueue_popped]
  rcases generateDatagram_cases ran with ⟨_,_,filled,_⟩ | ⟨_,_,filled,_⟩ | ⟨_,rfl⟩
  · exact (filled_popped filled).2 priority
  · exact (filled_popped filled).2 priority
  · simp [poppedFrom]

theorem backlog_generate (backlog : Backlog departed queued calls)
    (ran : queued.generateDatagram lz4 now maxDatagramSize = some (result,after)) :
    Backlog (fun priority => departed priority ++ fromQueue priority (poppedMessages queued.toSend after.toSend))
      after calls := by
  intro priority
  obtain ⟨units,cut,frames⟩ := backlog priority
  refine ⟨units,cut,?_⟩
  rw [←frames,List.append_assoc,←generate_queues ran priority]

-- A message of the size the sender cuts to always fits into an empty datagram.
theorem small_fits (large : Mtu.maxDatagramSize ≤ maxDatagramSize) {filling : Filling} {msg : MessageData}
    (empty : filling.payloadBuffer = []) (small : msg.data.length ≤ Mtu.maxMessageDataSize) :
    filling.Fits maxDatagramSize msg := by
  have header : messageHeaderSize msg (filling.context.form msg) ≤ Mtu.maxMessageHeaderSize := by
    unfold messageHeaderSize Mtu.maxMessageHeaderSize
    simp only [HeaderSizes.flags,HeaderSizes.dataSize,HeaderSizes.channelInfo,HeaderSizes.splitPacketInfo,
      HeaderSizes.sequenceNumber,HeaderSizes.sequenceReliableNumber]
    split <;> split <;> split <;> split <;> omega
  have room : Mtu.maxMessageDataSize + Mtu.maxMessageHeaderSize + DatagramHeader.size ≤ Mtu.maxDatagramSize := by
    decide
  unfold Filling.Fits
  rw [empty,List.length_nil]
  omega

theorem nothing_left (filled : Filled maxDatagramSize queues filling popped left final)
    (large : Mtu.maxDatagramSize ≤ maxDatagramSize) (empty : filling.payloadBuffer = [])
    (silent : final.payloadBuffer = [])
    (small : ∀ queue ∈ queues, ∀ msg ∈ queue.2, msg.data.length ≤ Mtu.maxMessageDataSize) :
    ∀ queue ∈ queues, queue.2 = [] := by
  induction filled with
  | done => exact fun _ present => absurd present List.not_mem_nil
  | next _ ih =>
    intro queue present
    rcases List.mem_cons.mp present with rfl | later
    · rfl
    · exact ih empty silent (fun other among => small other (List.mem_cons_of_mem _ among)) queue later
  | takes _ _ filled _ =>
    refine absurd silent (payload_grows filled ?_)
    unfold Filling.write
    simp only [writeMessageHeader,writeU8,List.append_assoc]
    exact fun none_written => by simp at none_written
  | leaves _ tooLong _ _ =>
    exact absurd (small_fits large empty (small _ List.mem_cons_self _ List.mem_cons_self)) tooLong

theorem backlog_small (backlog : Backlog departed state calls) (priority : Priority) :
    ∀ msg ∈ state.toSend priority, msg.data.length ≤ Mtu.maxMessageDataSize := by
  intro msg present
  obtain ⟨units,cut,frames⟩ := backlog priority
  have among : msg ∈ units.flatten := by
    rw [←frames]
    exact List.mem_append_right _ present
  obtain ⟨unit,inUnits,inUnit⟩ := List.mem_flatten.mp among
  obtain ⟨call,head,tail,rfl,parts⟩ := units_member cut inUnits
  exact parts.small msg inUnit

-- The sender only stops when every queue is empty.
theorem stop_empty (large : Mtu.maxDatagramSize ≤ maxDatagramSize)
    (small : ∀ priority, ∀ msg ∈ queued.toSend priority, msg.data.length ≤ Mtu.maxMessageDataSize)
    (ran : queued.generateDatagram lz4 now maxDatagramSize = some (.ok none,after)) :
    ∀ priority, queued.toSend priority = [] := by
  have known : ∀ priority : Priority, priority ∈ priorities := by decide
  intro priority
  unfold ConnectionState.generateDatagram at ran
  split at ran
  · rename_i nothing
    unfold ConnectionState.hasMessagesToSend at nothing
    simp only [Bool.not_eq_true',List.any_eq_false] at nothing
    simpa using nothing priority (known priority)
  · split at ran
    · cases ran
    · obtain ⟨⟨toSend,final⟩,fill,rest⟩ := Option.bind_eq_some_iff.mp ran
      obtain ⟨⟨popped,filled⟩,_⟩ := fillFrom_filled fill (by decide)
      dsimp only at rest
      split at rest
      · rename_i silent
        refine nothing_left filled large rfl (List.isEmpty_iff.mp silent) ?_ (priority,queued.toSend priority) ?_
        · intro queue present msg among
          obtain ⟨other,_,rfl⟩ := List.mem_map.mp present
          exact small other msg among
        · exact List.mem_map_of_mem (known priority)
      · cases rest

theorem queueAcks_keeps (ran : state.queueAcks now = some queued) (priority : Priority) :
    ∃ more, queued.toSend priority = state.toSend priority ++ more := by
  rcases ConnectionState.queueAcks_cases ran with ⟨_,rfl⟩ | ⟨_,_,_,_,ack,_,_,_,_,same⟩
  · exact ⟨[],(List.append_nil _).symm⟩
  · rw [same]
    dsimp only
    by_cases first : priority = 0
    · subst first
      exact ⟨[ack],PerPriority.set_same _ _ _⟩
    · exact ⟨[],by rw [PerPriority.set_other _ _ first,List.append_nil]⟩

-- Over a whole run every queue has let go of exactly the units of its calls.
theorem run_backlog (run : SendRun lz4 maxDatagramSize state steps final)
    (large : Mtu.maxDatagramSize ≤ maxDatagramSize) (backlog : Backlog departed state calls) (priority : Priority) :
    ∃ units, Units (callsOf priority (calls ++ steps.flatMap SendStep.acks)) units ∧
      departed priority ++ fromQueue priority (steps.flatMap SendStep.popped) = units.flatten := by
  induction run generalizing departed calls with
  | stop ran =>
    obtain ⟨queued,acks,generated⟩ := Option.bind_eq_some_iff.mp ran
    have empty := stop_empty large (backlog_small (backlog_acks backlog acks)) generated
    obtain ⟨more,kept⟩ := queueAcks_keeps acks priority
    rw [empty priority] at kept
    obtain ⟨units,cut,frames⟩ := backlog priority
    rw [(List.append_eq_nil_iff.mp kept.symm).1] at frames
    refine ⟨units,?_,frames⟩
    rw [List.flatMap_nil,List.append_nil]
    exact cut
  | sends acks generated _ ih =>
    obtain ⟨units,cut,frames⟩ := ih (backlog_generate (backlog_acks backlog acks) generated)
    refine ⟨units,?_,?_⟩
    · rw [List.flatMap_cons,←List.append_assoc]
      exact cut
    · rw [List.flatMap_cons,fromQueue_append,←List.append_assoc]
      exact frames

theorem run_frames (undone : ∀ payload : Bytes, payload.length ≤ maxDatagramSize →
      lz4.decompressPartial (lz4.compress payload) maxDecompressedBytes = some payload)
    (run : SendRun lz4 maxDatagramSize state steps final)
    (legible : ∀ step ∈ steps, LegibleQueues maxDatagramSize step.now step.queued) :
    List.Forall₂ (fun data frames => ∃ decoded, decodeDatagram lz4 data = .ok decoded ∧ decoded.frames = frames)
      (steps.map SendStep.datagram) (steps.map fun step => step.popped.map Prod.snd) := by
  induction run with
  | stop => exact .nil
  | sends _ generated _ ih =>
    obtain ⟨decoded,opened,exact_frames⟩ := generated_frames undone generated
    refine .cons ⟨decoded,opened,exact_frames.mpr (legible _ List.mem_cons_self)⟩ ?_
    exact ih fun step present => legible step (List.mem_cons_of_mem _ present)

theorem departures_queue (channel : UInt8) (steps : List SendStep) (priority : Priority) :
    fromQueue priority (departures channel steps) =
      framesOn channel (fromQueue priority (steps.flatMap SendStep.popped)) := by
  unfold fromQueue departures framesOn
  rw [List.filter_map,List.filter_filter,List.filter_filter]
  congr 1
  apply List.filter_congr
  intro popped _
  exact Bool.and_comm _ _

theorem departures_frames (channel : UInt8) (steps : List SendStep) :
    (departures channel steps).map Prod.snd =
      framesOn channel (steps.map fun step => step.popped.map Prod.snd).flatten := by
  unfold departures framesOn
  rw [←List.flatMap_def,←List.map_flatMap,List.filter_map]
  rfl

end Backlog

theorem lossless_send {lz4 : Lz4} {start state final : ConnectionState}
    (undone : ∀ payload : Bytes, payload.length ≤ maxDatagramSize →
      lz4.decompressPartial (lz4.compress payload) maxDecompressedBytes = some payload)
    (large : Mtu.maxDatagramSize ≤ maxDatagramSize) (fresh : ∀ priority, start.toSend priority = [])
    (queued : queueAll start calls = some state) (run : SendRun lz4 maxDatagramSize state steps final)
    (legible : ∀ step ∈ steps, LegibleQueues maxDatagramSize step.now step.queued)
    (inTurn : ∀ channel : UInt8, channel.toNat < maxChannels →
      DepartsInTurn sequenceNumberMax (departures channel steps)) :
    ∀ channel : UInt8, channel.toNat < maxChannels →
      DeliversAll ((calls ++ steps.flatMap SendStep.acks).filter fun call =>
          call.1.channel = channel ∧ Accepted call.1)
        ((onChannel channel (feedAll lz4 Reassembler.new (steps.map SendStep.datagram)).1).map (·.data)) := by
  intro channel real
  have empty : Backlog (fun _ => []) start [] := by
    intro priority
    refine ⟨[],.nil,?_⟩
    rw [fresh priority]
    rfl
  have backlog := backlog_calls empty queued
  rw [List.nil_append] at backlog
  have quiet : ((channelQueue channel).drain (Reassembler.new channel)).1 = [] := rfl
  rw [feedAll_channel real (run_frames undone run legible) Reassembler.new quiet,←departures_frames]
  have held : Held (fun priority => (callsOf priority (calls ++ steps.flatMap SendStep.acks)).filter
      fun call => call.1.channel = channel) (fun priority => fromQueue priority (departures channel steps)) := by
    intro priority
    obtain ⟨units,cut,frames⟩ := run_backlog run large backlog priority
    obtain ⟨kept,whole,same⟩ := units_channel cut
    refine ⟨?_,kept,whole,?_⟩
    · intro call present
      have inQueue := (List.mem_filter.mp (List.mem_filter.mp present).1).2
      simp only [decide_eq_true_eq] at inQueue
      exact inQueue.1
    · dsimp only
      rw [departures_queue,←same,←frames,List.nil_append]
  have staged : ((Reassembler.new channel).push ((departures channel steps).map Prod.snd)).staging =
      (departures channel steps).map Prod.snd := rfl
  obtain ⟨arranged,contents,order⟩ := departs_delivers (inTurn channel real) held rfl staged
  refine ⟨arranged,contents,?_⟩
  intro priority
  rw [order priority]
  unfold callsOf
  rw [List.filter_filter,List.filter_filter]
  apply List.filter_congr
  intro call _
  by_cases own : queueOf call = priority <;> by_cases same : call.1.channel = channel <;> simp [own,same]

-- One call that sends what is queued, when no acknowledgement is due.
def sendOnce (state : ConnectionState) : SendStep :=
  match state.generateDatagram storedBlocks 0 Mtu.maxDatagramSize with
  | some (.ok (some datagram),after) => ⟨0,[],state,after,datagram⟩
  | _ => ⟨0,[],state,state,[]⟩

def senderWith (calls : List QueueCall) : ConnectionState :=
  (queueAll (ConnectionState.new 0 false) calls).getD (ConnectionState.new 0 false)

def sameQueueCalls : List QueueCall := [(userMessage 0 .reliable [1,2],1),(userMessage 0 .unreliable [3],1)]

theorem lossless_send_sameQueue :
    SendRun storedBlocks Mtu.maxDatagramSize (senderWith sameQueueCalls) [sendOnce (senderWith sameQueueCalls)]
      (sendOnce (senderWith sameQueueCalls)).after ∧
    ∀ channel : UInt8, channel.toNat < maxChannels →
      DeliversAll ((sameQueueCalls ++ []).filter fun call => call.1.channel = channel ∧ Accepted call.1)
        ((onChannel channel (feedAll storedBlocks Reassembler.new
          [(sendOnce (senderWith sameQueueCalls)).datagram]).1).map (·.data)) := by
  have run : SendRun storedBlocks Mtu.maxDatagramSize (senderWith sameQueueCalls)
      [sendOnce (senderWith sameQueueCalls)] (sendOnce (senderWith sameQueueCalls)).after := by
    have stopped : (sendOnce (senderWith sameQueueCalls)).after.prepareOutgoingDatagram storedBlocks 0
        Mtu.maxDatagramSize = some (.ok none,(sendOnce (senderWith sameQueueCalls)).after) := rfl
    exact .sends rfl rfl (.stop stopped)
  refine ⟨run,lossless_send (storedBlocks_undone (by decide)) (Nat.le_refl _) (fun _ => rfl) rfl run ?_ ?_⟩
  · intro step present
    rw [List.mem_singleton.mp present]
    exact .next (.takes (by decide) ⟨by decide,by decide,by decide⟩
      (.takes (by decide) ⟨by decide,by decide,by decide⟩ (.next (.next (.next .done)))))
  · intro channel _
    by_cases zero : channel = 0
    · subst zero
      have turn : DepartsInTurn sequenceNumberMax ([reliableFrame 0 1 [1,2]].map (fun frame => ((1 : Priority),frame)) ++
          [(1,{ userMessage 0 .unreliable [3] with sequenceNumber := 1, sendReliableSeqNum := 0 })]) :=
        .message rfl rfl rfl (.unreliable rfl (.inr rfl) .done)
      exact turn
    · have none_leave : departures channel [sendOnce (senderWith sameQueueCalls)] = [] := by
        apply List.filter_eq_nil_iff.mpr
        intro popped present
        have onZero : ∀ popped ∈ [sendOnce (senderWith sameQueueCalls)].flatMap SendStep.popped,
            popped.2.channel = 0 := by decide
        simpa [onZero popped present] using Ne.symm zero
      rw [none_leave]
      exact .done

-- The second message, of a higher priority, leaves first and stays in front of the
-- first one in the receiver's queue.
def mixedCalls : List QueueCall := [(userMessage 0 .reliable [1],3),(userMessage 0 .reliable [2],1)]

theorem mixed_priorities_block_channel :
    ¬∀ (lz4 : Lz4) (maxDatagramSize : Nat) (start state final : ConnectionState) (calls : List QueueCall)
      (steps : List SendStep),
      (∀ payload : Bytes, payload.length ≤ maxDatagramSize →
        lz4.decompressPartial (lz4.compress payload) maxDecompressedBytes = some payload) →
      Mtu.maxDatagramSize ≤ maxDatagramSize → (∀ priority, start.toSend priority = []) →
      queueAll start calls = some state → SendRun lz4 maxDatagramSize state steps final →
      ∀ channel : UInt8, channel.toNat < maxChannels →
        DeliversAll ((calls ++ steps.flatMap SendStep.acks).filter fun call =>
            call.1.channel = channel ∧ Accepted call.1)
          ((onChannel channel (feedAll lz4 Reassembler.new (steps.map SendStep.datagram)).1).map (·.data)) := by
  intro always
  have run : SendRun storedBlocks Mtu.maxDatagramSize (senderWith mixedCalls) [sendOnce (senderWith mixedCalls)]
      (sendOnce (senderWith mixedCalls)).after := by
    have stopped : (sendOnce (senderWith mixedCalls)).after.prepareOutgoingDatagram storedBlocks 0
        Mtu.maxDatagramSize = some (.ok none,(sendOnce (senderWith mixedCalls)).after) := rfl
    exact .sends rfl rfl (.stop stopped)
  obtain ⟨arranged,contents,order⟩ := always storedBlocks Mtu.maxDatagramSize (ConnectionState.new 0 false) _ _
    mixedCalls _ (storedBlocks_undone (by decide)) (Nat.le_refl _) (fun _ => rfl) rfl run 0 (by decide)
  have nothing : ((onChannel 0 (feedAll storedBlocks Reassembler.new
      [(sendOnce (senderWith mixedCalls)).datagram]).1).map (·.data)) = [] := by decide
  have nobody : arranged = [] := List.map_eq_nil_iff.mp (contents.symm.trans nothing)
  subst nobody
  exact absurd (order 3) (by decide)

end NwNetwork.Carrier
