import NwNetwork.CarrierReassembler
import NwNetwork.CarrierDatagramHistory
import NwNetwork.CarrierDatagram

namespace NwNetwork.Carrier
open WireReader Serialize

abbrev Priority := Fin 4
abbrev PerPriority (α : Type) := Priority → α

def PerPriority.set (array : PerPriority α) (priority : Priority) (value : α) : PerPriority α :=
  fun other => if other = priority then value else array other

@[simp] theorem PerPriority.set_same (array : PerPriority α) (priority : Priority) (value : α) :
    array.set priority value priority = value := by simp [PerPriority.set]

@[simp] theorem PerPriority.set_other (array : PerPriority α) (value : α) (ne : other ≠ priority) :
    array.set priority value other = array other := by simp [PerPriority.set,ne]

def priorities : List Priority := [0,1,2,3]

-- Flow control keeps the number and the times here; the sizes it records are
-- read by no modelled function.
structure DatagramData where
  sequenceNumber : SequenceNumber
  sentTime : Nat
  resendDataSize : BitVec 16
  toResend : PerPriority (List MessageData)

def DatagramData.new (sequenceNumber : SequenceNumber) (now : Nat) : DatagramData :=
  ⟨sequenceNumber,now,0,fun _ => []⟩

-- Times are nanoseconds on one clock.
def milliseconds (count : Nat) : Nat := count*1000000

def lostPacketTimeout : Nat := milliseconds 1000
def nackAcceleration : Nat := milliseconds (1000/3)
def ackKeepAlive : Nat := milliseconds 100

-- Without the transport, the handshake timers and the time of the last arrival,
-- none of which the modelled functions read.
structure ConnectionState where
  receivedDatagramsHistory : DatagramHistoryList
  datagramSeqNum : SequenceNumber
  lastAckedDatagram : SequenceNumber
  sendSeqNum : PerChannel SequenceNumber
  sendReliableSeqNum : PerChannel SequenceNumber
  toSend : PerPriority (List MessageData)
  reassembler : Reassembler
  toReceive : PerChannel (List MessageData)
  sendDatagrams : List DatagramData
  lastAckSendTime : Nat
  receivedSinceLastSend : Bool
  isConnecting : Bool
  sendCompressed : Bool

def ConnectionState.new (now : Nat) (sendCompressed : Bool) : ConnectionState where
  receivedDatagramsHistory := DatagramHistoryList.new
  datagramSeqNum := 1
  lastAckedDatagram := 0
  sendSeqNum := fun _ => sequenceNumberMax
  sendReliableSeqNum := fun _ => sequenceNumberMax
  toSend := fun _ => []
  reassembler := Reassembler.new
  toReceive := fun _ => []
  sendDatagrams := []
  lastAckSendTime := now
  receivedSinceLastSend := false
  isConnecting := true
  sendCompressed := sendCompressed

-- Queueing.

-- A priority past the last one falls back to the first queue.
def queueIndex (priority : Nat) : Priority :=
  if fits : priority < priorityMax then ⟨priority,fits⟩ else 0

namespace ConnectionState

def queueMessageChunk (state : ConnectionState) (message : MessageData) (priority : Nat)
    (numChunks : BitVec 16) : ConnectionState :=
  let channel := message.channel
  let sequenceNumber := state.sendSeqNum channel + 1
  let reliableSeqNum := if message.reliability = .reliable then state.sendReliableSeqNum channel + 1
    else state.sendReliableSeqNum channel
  let message := { message with
    numChunks := numChunks, sequenceNumber := sequenceNumber, sendReliableSeqNum := reliableSeqNum }
  { state with
    sendSeqNum := state.sendSeqNum.set channel sequenceNumber
    sendReliableSeqNum := state.sendReliableSeqNum.set channel reliableSeqNum
    toSend := state.toSend.set (queueIndex priority) (state.toSend (queueIndex priority) ++ [message]) }

-- The data is cut by the caller.
def queueChunks (state : ConnectionState) (message : MessageData) (priority : Nat)
    (chunksRemaining : Nat) : List Bytes → ConnectionState
  | [] => state
  | chunkData :: rest =>
    let chunkMsg := { MessageData.new with
      channel := message.channel, reliability := .reliable
      isConnecting := message.isConnecting, data := chunkData }
    queueChunks (state.queueMessageChunk chunkMsg priority (BitVec.ofNat 16 chunksRemaining))
      message priority (chunksRemaining - 1) rest

end ConnectionState

def splitAtMost (size : Nat) : Nat → Bytes → List Bytes
  | 0,_ => []
  | fuel+1,data => if data.isEmpty then [] else data.take size :: splitAtMost size fuel (data.drop size)

def chunksOf (data : Bytes) : List Bytes := splitAtMost Mtu.maxMessageDataSize data.length data

-- `none` is the panic on a channel that does not exist. A message that needs too
-- many chunks is dropped.
def ConnectionState.queueMessage (state : ConnectionState) (message : MessageData) (priority : Nat) :
    Option ConnectionState :=
  if maxChannels ≤ message.channel.toNat ∧
      (Mtu.chunksNeeded message.data.length ≤ Mtu.maxNumChunks) then none
  else if message.data.length ≤ Mtu.maxMessageDataSize then
    some (state.queueMessageChunk message priority 1)
  else if Mtu.maxNumChunks < Mtu.chunksNeeded message.data.length then some state
  else some (state.queueChunks message priority (Mtu.chunksNeeded message.data.length) (chunksOf message.data))

-- Filling a datagram.

structure WriteContext where
  currentChannel : UInt8
  isWrittenFirstSeqNum : PerChannel Bool
  isWrittenFirstRelSeqNum : PerChannel Bool
  lastSequenceNumber : PerChannel SequenceNumber
  lastSeqReliableNumber : PerChannel SequenceNumber

namespace WriteContext

def start : WriteContext := ⟨0,fun _ => false,fun _ => false,fun _ => 0,fun _ => 0⟩

-- What the loop finds out about the message at the head of a queue, and what it
-- notes down before it knows whether the message fits.
def form (context : WriteContext) (msg : MessageData) : HeaderForm where
  isWriteSeqNumber := if context.isWrittenFirstSeqNum msg.channel then
      sequenceNumberSequentialDistance (context.lastSequenceNumber msg.channel) msg.sequenceNumber ≠ 1
    else true
  isWriteReliableSeqNum := if context.isWrittenFirstRelSeqNum msg.channel then
      if msg.reliability = .reliable then
        sequenceNumberSequentialDistance (context.lastSeqReliableNumber msg.channel) msg.sendReliableSeqNum ≠ 1
      else true
    else true
  isWriteChannel := msg.channel ≠ context.currentChannel

def look (context : WriteContext) (msg : MessageData) : WriteContext := { context with
  currentChannel := msg.channel
  isWrittenFirstSeqNum := context.isWrittenFirstSeqNum.set msg.channel true
  isWrittenFirstRelSeqNum := context.isWrittenFirstRelSeqNum.set msg.channel true }

def wrote (context : WriteContext) (msg : MessageData) : WriteContext := { context with
  lastSequenceNumber := context.lastSequenceNumber.set msg.channel msg.sequenceNumber
  lastSeqReliableNumber := context.lastSeqReliableNumber.set msg.channel msg.sendReliableSeqNum }

end WriteContext

structure Filling where
  context : WriteContext
  payloadBuffer : Bytes
  dgramData : DatagramData

namespace Filling

-- Only reliable messages are kept for a resend; the counter wraps.
def track (dgramData : DatagramData) (priority : Priority) (msg : MessageData) : DatagramData :=
  if msg.reliability = .reliable then { dgramData with
    resendDataSize := dgramData.resendDataSize + BitVec.ofNat 16 msg.data.length
    toResend := dgramData.toResend.set priority (dgramData.toResend priority ++ [msg]) }
  else dgramData

def look (filling : Filling) (msg : MessageData) : Filling :=
  { filling with context := filling.context.look msg }

def write (filling : Filling) (priority : Priority) (msg : MessageData) : Filling where
  context := (filling.context.look msg).wrote msg
  payloadBuffer := filling.payloadBuffer ++ writeMessageHeader msg (filling.context.form msg) ++ msg.data
  dgramData := track filling.dgramData priority msg

def Fits (maxDatagramSize : Nat) (filling : Filling) (msg : MessageData) : Prop :=
  msg.data.length + messageHeaderSize msg (filling.context.form msg) ≤
    maxDatagramSize - DatagramHeader.size - filling.payloadBuffer.length

instance : Decidable (Fits maxDatagramSize filling msg) := inferInstanceAs (Decidable (_ ≤ _))

end Filling

-- The messages of one queue, until one does not fit.
def fillQueue (maxDatagramSize : Nat) (priority : Priority) :
    List MessageData → Filling → Option (List MessageData × Filling)
  | [],filling => some ([],filling)
  | msg :: queue,filling =>
    if maxChannels ≤ msg.channel.toNat then none
    else if filling.Fits maxDatagramSize msg then
      fillQueue maxDatagramSize priority queue (filling.write priority msg)
    else some (msg :: queue,filling.look msg)

def fillFrom (maxDatagramSize : Nat) (queues : PerPriority (List MessageData)) :
    List Priority → Filling → Option (PerPriority (List MessageData) × Filling)
  | [],filling => some (queues,filling)
  | priority :: later,filling => do
    let (queue,filling) ← fillQueue maxDatagramSize priority (queues priority) filling
    fillFrom maxDatagramSize (queues.set priority queue) later filling

inductive PrepareError where
  | maxDatagramSizeTooSmall (maxDatagramSize headerSize : Nat)
  deriving DecidableEq, Repr

def datagramBytes (firstByte : UInt8) (seq : SequenceNumber) (payload : Bytes) : Bytes :=
  firstByte :: DatagramHeader.hasCompressorMark :: writeU16 seq ++ payload

-- The compressed form is used when it is allowed and shorter.
def finishDatagram (lz4 : Lz4) (compressing : Bool) (seq : SequenceNumber) (payload : Bytes) : Bytes :=
  if compressing then
    if payload.length ≤ (lz4.compress payload).length then
      datagramBytes DatagramHeader.uncompressed seq payload
    else datagramBytes DatagramHeader.compressed seq (lz4.compress payload)
  else datagramBytes DatagramHeader.uncompressed seq payload

namespace SystemMessage
def ctFirst : UInt8 := 5
def ctAcks : UInt8 := 6
end SystemMessage

namespace ConnectionState

def hasMessagesToSend (state : ConnectionState) : Bool :=
  priorities.any fun priority => !(state.toSend priority).isEmpty

def hasUserMessages (state : ConnectionState) : Bool :=
  priorities.any fun priority => (state.toSend priority).any fun msg => msg.channel ≠ systemChannel

def writeAckData (state : ConnectionState) : Option (Bytes × ConnectionState) := do
  let (frame,lastToAck,history) ← writeAckHistory state.receivedDatagramsHistory
  some (frame,{ state with
    receivedDatagramsHistory := history, lastAckedDatagram := lastToAck.getD state.lastAckedDatagram })

def ackMessage (isConnecting : Bool) (frame : Bytes) : MessageData := { MessageData.new with
  channel := systemChannel, reliability := .unreliable, isConnecting := isConnecting
  data := frame ++ [SystemMessage.ctAcks] }

def ackDue (now : Nat) (state : ConnectionState) : Bool :=
  state.receivedSinceLastSend || decide (ackKeepAlive ≤ now - state.lastAckSendTime)

-- First part of `prepare_outgoing_datagram`: an acknowledgement goes into the
-- first queue when one is due.
def queueAcks (now : Nat) (state : ConnectionState) : Option ConnectionState :=
  if state.ackDue now then do
    let (frame,state) ← state.writeAckData
    let state ← state.queueMessage (ackMessage state.isConnecting frame) 0
    some { state with lastAckSendTime := now, receivedSinceLastSend := false }
  else some state

-- Second part: the datagram itself.
def generateDatagram (lz4 : Lz4) (now maxDatagramSize : Nat) (state : ConnectionState) :
    Option (Except PrepareError (Option Bytes) × ConnectionState) :=
  if !state.hasMessagesToSend then some (.ok none,state)
  else if maxDatagramSize ≤ DatagramHeader.size then
    some (.error (.maxDatagramSizeTooSmall maxDatagramSize DatagramHeader.size),state)
  else do
    let datagramSeq := state.datagramSeqNum + 1
    let (toSend,filling) ← fillFrom maxDatagramSize state.toSend priorities
      ⟨WriteContext.start,[],DatagramData.new datagramSeq now⟩
    let after := { state with toSend := toSend }
    if filling.payloadBuffer.isEmpty then some (.ok none,after) else
    let compressing := state.sendCompressed && state.hasUserMessages && !state.isConnecting
    some (.ok (some (finishDatagram lz4 compressing datagramSeq filling.payloadBuffer)),{ after with
      datagramSeqNum := datagramSeq, sendDatagrams := after.sendDatagrams ++ [filling.dgramData] })

-- `none` is a panic on a channel that does not exist or a hang in the history.
def prepareOutgoingDatagram (lz4 : Lz4) (now maxDatagramSize : Nat) (state : ConnectionState) :
    Option (Except PrepareError (Option Bytes) × ConnectionState) := do
  let state ← state.queueAcks now
  state.generateDatagram lz4 now maxDatagramSize

-- Receiving.

-- Every nack makes the datagram look older; a time that would underflow stays.
def nackDatagram (seq : SequenceNumber) : List DatagramData → List DatagramData
  | [] => []
  | dgram :: rest =>
    if dgram.sequenceNumber = seq then
      { dgram with sentTime :=
          if nackAcceleration ≤ dgram.sentTime then dgram.sentTime - nackAcceleration else dgram.sentTime } :: rest
    else dgram :: nackDatagram seq rest

def applyAckDataToSendQueue (sendDatagrams : List DatagramData) (ackData : AckData) :
    List DatagramData × List SequenceNumber :=
  (sendDatagrams.filter (fun dgram => !ackData.isAcked dgram.sequenceNumber),
    (sendDatagrams.map (·.sequenceNumber)).filter ackData.isNacked)

def readAckData (state : ConnectionState) (buffer : Bytes) : ConnectionState :=
  match readAckDataFrame buffer with
  | none => state
  | some ackData =>
    let (kept,nacked) := applyAckDataToSendQueue state.sendDatagrams ackData
    { state with sendDatagrams := nacked.foldl (fun dgrams seq => nackDatagram seq dgrams) kept }

inductive IncomingError where
  | decode (source : DecodeError)
  | duplicateDatagram
  | systemMessageTooSmall
  deriving DecidableEq, Repr

-- Whether the message goes on to the application.
def processSystemMessage (state : ConnectionState) (msg : MessageData) :
    Except IncomingError (Bool × ConnectionState) :=
  match msg.data.getLast? with
  | none => .error .systemMessageTooSmall
  | some msgId =>
    if SystemMessage.ctFirst < msgId then
      if msgId = SystemMessage.ctAcks then .ok (false,state.readAckData msg.data.dropLast)
      else .ok (false,state)
    else .ok (true,state)

def toInbox (state : ConnectionState) (channel : UInt8) (msg : MessageData) : ConnectionState :=
  { state with toReceive := state.toReceive.set channel (state.toReceive channel ++ [msg]) }

-- An error ends the loop; what was delivered behind it is lost.
def route (state : ConnectionState) : List (UInt8 × MessageData) → Except IncomingError Unit × ConnectionState
  | [] => (.ok (),state)
  | (channel,msg) :: rest =>
    if channel = systemChannel then
      match state.processSystemMessage msg with
      | .error error => (.error error,state)
      | .ok (true,state) => route (state.toInbox channel msg) rest
      | .ok (false,state) => route state rest
    else route (state.toInbox channel msg) rest

-- The frames enter the reassembler before the history is asked for a duplicate.
def processIncomingDatagram (lz4 : Lz4) (data : Bytes) (state : ConnectionState) :
    Option (Except IncomingError Unit × ConnectionState) :=
  let state := { state with receivedSinceLastSend := true }
  match decodeDatagram lz4 data with
  | .error source => some (.error (.decode source),state)
  | .ok decoded => do
    let fed := { state with reassembler := decoded.frames.foldl Reassembler.accept state.reassembler }
    let (fresh,history) ← fed.receivedDatagramsHistory.insert decoded.header.sequenceNumber
    let noted := { fed with receivedDatagramsHistory := history }
    if fresh then
      let (delivered,reassembler) := noted.reassembler.drain
      some ({ noted with reassembler := reassembler }.route delivered)
    else some (.error .duplicateDatagram,noted)

-- Resending.

-- The messages of an expired datagram go back to the front of their queues,
-- unless its data counter is zero.
def requeue (toSend : PerPriority (List MessageData)) (dgram : DatagramData) : PerPriority (List MessageData) :=
  if 0 < dgram.resendDataSize.toNat then fun priority => dgram.toResend priority ++ toSend priority
  else toSend

def expired (now : Nat) (dgram : DatagramData) : Bool := lostPacketTimeout < now - dgram.sentTime

def resendFrom (now : Nat) : List DatagramData → PerPriority (List MessageData) →
    Nat × List DatagramData × PerPriority (List MessageData)
  | [],toSend => (0,[],toSend)
  | dgram :: rest,toSend =>
    if expired now dgram then
      let (count,left,toSend) := resendFrom now rest (requeue toSend dgram)
      (count + 1,left,toSend)
    else (0,dgram :: rest,toSend)

def processResends (now : Nat) (state : ConnectionState) : Nat × ConnectionState :=
  let (count,left,toSend) := resendFrom now state.sendDatagrams state.toSend
  (count,{ state with sendDatagrams := left, toSend := toSend })

end ConnectionState
end NwNetwork.Carrier
