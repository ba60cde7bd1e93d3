import NwNetwork.CarrierConnectionState

namespace NwNetwork.Carrier
open WireReader Serialize

namespace SystemMessage
def connectRequest : UInt8 := 1
def connectAck : UInt8 := 2
def disconnect : UInt8 := 3
end SystemMessage

inductive DisconnectReason where
  | userRequested
  | badConnection
  | badPackets
  | driverError
  | handshakeRejected
  | handshakeTimeout
  | wasAlreadyConnected
  | shuttingDown
  | debugDeleteConnection
  | versionMismatch
  deriving DecidableEq, Repr

namespace DisconnectReason

def toU8 : DisconnectReason → UInt8
  | .userRequested => 0
  | .badConnection => 1
  | .badPackets => 2
  | .driverError => 3
  | .handshakeRejected => 4
  | .handshakeTimeout => 5
  | .wasAlreadyConnected => 6
  | .shuttingDown => 7
  | .debugDeleteConnection => 8
  | .versionMismatch => 9

def all : List DisconnectReason := [.userRequested,.badConnection,.badPackets,.driverError,.handshakeRejected,
  .handshakeTimeout,.wasAlreadyConnected,.shuttingDown,.debugDeleteConnection,.versionMismatch]

def tryFrom (value : UInt8) : Option DisconnectReason := all.find? fun reason => reason.toU8 = value

theorem tryFrom_toU8 (reason : DisconnectReason) : tryFrom reason.toU8 = some reason := by
  cases reason <;> rfl

end DisconnectReason

inductive CarrierRole where
  | initiator
  | responder
  deriving DecidableEq, Repr

inductive DriverError where
  | io (source : String)
  | ssl (message : String)
  | invalidState (message : String)
  | address (message : String)
  | timeout
  | connectionClosed
  | handshakeFailed (message : String)
  deriving DecidableEq, Repr

def DriverError.isRetryable : DriverError → Bool
  | .timeout | .connectionClosed | .io _ => true
  | _ => false

inductive CarrierCommand where
  | sendMessage (message : MessageData) (priority : Nat)
  | disconnect (reason : DisconnectReason)
  deriving DecidableEq, Repr

-- What an error event is about; its text is `description`.
inductive CarrierError where
  | datagram (source : ConnectionState.IncomingError)
  | dtls (source : DriverError)
  | send (source : DriverError)
  | requestVersion (version expected : BitVec 32)
  | ackVersion (version expected : BitVec 32)
  deriving DecidableEq, Repr

inductive CarrierEvent where
  | connected (version : BitVec 32)
  | disconnected (reason : DisconnectReason)
  | messageReceived (channel : UInt8) (data : Bytes)
  | error (cause : CarrierError)
  deriving DecidableEq, Repr

section Description
-- The text of the block decompressor's error and the debug form of a driver error
-- come from other packages.
variable (lz4Error : String) (debug : DriverError → String)

def DecodeError.text : DecodeError → String
  | .header source => "datagram header: " ++ source.text
  | .decompress payloadLen => "lz4 decompress failed (" ++ lz4Error ++ "); payload " ++ toString payloadLen ++ " bytes"
  | .frameParseStop payloadLen leftover => "frame parse stopped with " ++ toString leftover ++
      " bytes remaining in payload of " ++ toString payloadLen

def ConnectionState.IncomingError.text : ConnectionState.IncomingError → String
  | .decode source => "decode datagram: " ++ source.text lz4Error
  | .duplicateDatagram => "Duplicate datagram"
  | .systemMessageTooSmall => "System message too small"

def CarrierError.description : CarrierError → String
  | .datagram source => "Datagram error: " ++ source.text lz4Error
  | .dtls source => "DTLS error: " ++ debug source
  | .send source => "Send error: " ++ debug source
  | .requestVersion version expected => "Peer SM_CONNECT_REQUEST version mismatch: " ++ toString version.toNat ++
      " != " ++ toString expected.toNat
  | .ackVersion version expected => "Version mismatch: " ++ toString version.toNat ++ " != " ++ toString expected.toNat

end Description

namespace HandshakeRetry

def retryBaseMs : Nat := 10
def retryMaxMs : Nat := 1000

def retryInterval (numRetries : BitVec 32) : Nat :=
  milliseconds (min retryMaxMs (retryBaseMs * 2^(min numRetries.toNat 10)))

end HandshakeRetry

-- The driver of one connection. The last four fields are what has passed through
-- its channels and its transport so far; no function reads them.
structure CarrierDriver where
  threadConn : ConnectionState
  handshakeRetryTime : Nat
  handshakeNumRetries : BitVec 32
  protocolVersion : BitVec 32
  role : CarrierRole
  shutdownFlag : Bool
  exited : Bool
  fromMain : List CarrierCommand
  toMain : List CarrierEvent
  heard : List Bytes
  written : List Bytes

def CarrierDriver.new (now : Nat) (sendCompressed : Bool) (version : BitVec 32) (role : CarrierRole) :
    CarrierDriver where
  threadConn := ConnectionState.new now sendCompressed
  handshakeRetryTime := now
  handshakeNumRetries := 0
  protocolVersion := version
  role := role
  shutdownFlag := false
  exited := false
  fromMain := []
  toMain := []
  heard := []
  written := []

-- One round of the send loop: the clock, and how `io.write` ends if it is called.
structure Attempt where
  now : Nat
  failure : Option DriverError

-- What a turn of the loop selects, with the clock readings and transport results
-- that the turn asks for. `queued` is what the batch drain still finds.
inductive LoopEvent where
  | networkData (first : Except DriverError Bytes) (queued : List Bytes) (resendsAt : Nat) (attempts : List Attempt)
  | command (received : Option CarrierCommand) (attempts : List Attempt)
  | handshakeRetry (askedAt firedAt : Nat) (attempts : List Attempt) (scheduledAt : Nat)
  | ackCheck (resendsAt : Nat) (attempts : List Attempt)
  | heartbeat (resendsAt : Nat) (attempts : List Attempt)

namespace ConnectionState

-- `to_send[0].push_back`, past the numbering of `queue_message`.
def pushFirst (state : ConnectionState) (message : MessageData) : ConnectionState :=
  { state with toSend := state.toSend.set (queueIndex 0) (state.toSend (queueIndex 0) ++ [message]) }

-- `pop_ready_message` on a queue that goes on with `rest`.
def popReady (state : ConnectionState) (channel : UInt8) (rest : List MessageData) : ConnectionState :=
  { state with toReceive := state.toReceive.set channel rest }

end ConnectionState

-- A system message as the driver queues it itself.
def connectingMessage (data : Bytes) : MessageData := { MessageData.new with
  channel := systemChannel, reliability := .unreliable, isConnecting := true, data := data }

def disconnectMessage (reason : DisconnectReason) : MessageData := { MessageData.new with
  channel := systemChannel, reliability := .unreliable, data := [reason.toU8,SystemMessage.disconnect] }

namespace CarrierDriver

def emit (driver : CarrierDriver) (event : CarrierEvent) : CarrierDriver :=
  { driver with toMain := driver.toMain ++ [event] }

def makeConnectRequestPayload (driver : CarrierDriver) : Bytes :=
  writeU32 driver.protocolVersion ++ List.replicate driver.handshakeNumRetries.toNat 0x01 ++
    [SystemMessage.connectRequest]

def queueConnectRequest (driver : CarrierDriver) : CarrierDriver :=
  { driver with threadConn := driver.threadConn.pushFirst (connectingMessage driver.makeConnectRequestPayload) }

def queueConnectAck (driver : CarrierDriver) : CarrierDriver :=
  let payload := writeU32 driver.protocolVersion ++ [SystemMessage.connectAck]
  { driver with threadConn := driver.threadConn.pushFirst (connectingMessage payload) }

-- `ACK_FLAGS` and `SM_CT_ACKS`.
def keepAliveMessage : MessageData := connectingMessage [0x20,SystemMessage.ctAcks]

-- The counter wraps.
def scheduleNextRetry (now : Nat) (driver : CarrierDriver) : CarrierDriver :=
  let retries := driver.handshakeNumRetries + 1
  { driver with
    handshakeNumRetries := retries, handshakeRetryTime := now + HandshakeRetry.retryInterval retries }

def timeUntilRetry (now : Nat) (driver : CarrierDriver) : Option Nat :=
  if driver.threadConn.isConnecting then some (driver.handshakeRetryTime - now) else none

-- `None` from the clock of a connection that is no longer connecting waits an hour.
def retryDuration (now : Nat) (driver : CarrierDriver) : Nat :=
  (driver.timeUntilRetry now).getD (milliseconds 3600000)

-- Until there is nothing more to send, an error or a failed write. `none` is a
-- panic, a hang, or a list of rounds that is too short.
def sendPendingData (lz4 : Lz4) : List Attempt → CarrierDriver → Option CarrierDriver
  | [],_ => none
  | attempt :: later,driver => do
    let (result,threadConn) ← driver.threadConn.prepareOutgoingDatagram lz4 attempt.now Mtu.maxDatagramSize
    let prepared := { driver with threadConn := threadConn }
    match result with
    | .ok (some datagram) =>
      let handed := { prepared with written := prepared.written ++ [datagram] }
      match attempt.failure with
      | none => sendPendingData lz4 later handed
      | some error => some (handed.emit (.error (.send error)))
    | .ok none => some prepared
    | .error _ => some prepared

-- One datagram. The connection goes on after an error in it.
def receive (lz4 : Lz4) (data : Bytes) (driver : CarrierDriver) : Option CarrierDriver := do
  let (result,threadConn) ← driver.threadConn.processIncomingDatagram lz4 data
  let processed := { driver with threadConn := threadConn, heard := driver.heard ++ [data] }
  match result with
  | .ok () => some processed
  | .error error => some (processed.emit (.error (.datagram error)))

def receiveAll (lz4 : Lz4) : List Bytes → CarrierDriver → Option CarrierDriver
  | [],driver => some driver
  | data :: rest,driver => do
    let driver ← driver.receive lz4 data
    receiveAll lz4 rest driver

def connected (driver : CarrierDriver) (version : BitVec 32) : CarrierDriver :=
  ({ driver with threadConn := { driver.threadConn with isConnecting := false } }).emit (.connected version)

def handleSystemMessage (driver : CarrierDriver) (data : Bytes) : CarrierDriver :=
  match data.getLast? with
  | none => driver
  | some msgId =>
    if msgId = SystemMessage.connectRequest ∧ 5 ≤ data.length ∧ driver.role = .responder then
      match readU32 data.dropLast with
      | .error _ => driver
      | .ok (version,_) =>
        if version ≠ driver.protocolVersion then
          driver.emit (.error (.requestVersion version driver.protocolVersion))
        else driver.queueConnectAck.connected version
    else if msgId = SystemMessage.connectAck ∧ 5 ≤ data.length then
      match readU32 data.dropLast with
      | .error _ => driver
      | .ok (version,_) =>
        if version = driver.protocolVersion then driver.connected version
        else driver.emit (.error (.ackVersion version driver.protocolVersion))
    else if msgId = SystemMessage.disconnect then
      let rawReason := (readU8 data.dropLast).toOption.map Prod.fst
      let reason := (rawReason.bind DisconnectReason.tryFrom).getD .badPackets
      { driver.emit (.disconnected reason) with shutdownFlag := true }
    else driver

def handOver (driver : CarrierDriver) (channel : UInt8) (msg : MessageData) : CarrierDriver :=
  if channel = systemChannel then driver.handleSystemMessage msg.data
  else driver.emit (.messageReceived channel msg.data)

def forwardQueue (channel : UInt8) : List MessageData → CarrierDriver → CarrierDriver
  | [],driver => driver
  | msg :: rest,driver =>
    forwardQueue channel rest
      ({ driver with threadConn := driver.threadConn.popReady channel rest }.handOver channel msg)

def forwardMessages (driver : CarrierDriver) : CarrierDriver :=
  channels.foldl (fun driver channel => driver.forwardQueue channel (driver.threadConn.toReceive channel)) driver

def processResends (now : Nat) (driver : CarrierDriver) : CarrierDriver :=
  { driver with threadConn := (driver.threadConn.processResends now).2 }

def handleHandshakeRetry (lz4 : Lz4) (attempts : List Attempt) (scheduledAt : Nat) (driver : CarrierDriver) :
    Option CarrierDriver :=
  if driver.role ≠ .initiator then some driver
  else do
    let queued := driver.queueConnectRequest
    let queued := { queued with threadConn := queued.threadConn.pushFirst keepAliveMessage }
    let sent ← queued.sendPendingData lz4 attempts
    some (sent.scheduleNextRetry scheduledAt)

def handleCommand (lz4 : Lz4) (attempts : List Attempt) (driver : CarrierDriver) :
    CarrierCommand → Option CarrierDriver
  | .sendMessage message priority => do
    let threadConn ← driver.threadConn.queueMessage message priority
    { driver with threadConn := threadConn }.sendPendingData lz4 attempts
  | .disconnect reason => do
    let threadConn ← driver.threadConn.queueMessage (disconnectMessage reason) 0
    let sent ← { driver with threadConn := threadConn }.sendPendingData lz4 attempts
    some { sent.emit (.disconnected reason) with shutdownFlag := true, exited := true }

-- One turn of the loop in `run`. A turn that finds the flag set only leaves the
-- loop. `none` is a driver that has left it, a panic, or a timer that fires early.
def turn (lz4 : Lz4) (driver : CarrierDriver) (event : LoopEvent) : Option CarrierDriver :=
  if driver.exited then none
  else if driver.shutdownFlag then some { driver with exited := true }
  else match event with
  | .networkData (.error error) queued resendsAt attempts =>
    if error.isRetryable then do
      let drained ← driver.receiveAll lz4 queued
      (drained.forwardMessages.processResends resendsAt).sendPendingData lz4 attempts
    else some { driver.emit (.error (.dtls error)) with exited := true }
  | .networkData (.ok plaintext) queued resendsAt attempts => do
    let drained ← driver.receiveAll lz4 (plaintext :: queued)
    (drained.forwardMessages.processResends resendsAt).sendPendingData lz4 attempts
  | .command none _ => some { driver with exited := true }
  | .command (some command) attempts =>
    { driver with fromMain := driver.fromMain ++ [command] }.handleCommand lz4 attempts command
  | .handshakeRetry askedAt firedAt attempts scheduledAt =>
    if firedAt < askedAt + driver.retryDuration askedAt then none
    else if driver.threadConn.isConnecting then driver.handleHandshakeRetry lz4 attempts scheduledAt
    else some driver
  | .ackCheck resendsAt attempts | .heartbeat resendsAt attempts => do
    let sent ← (driver.processResends resendsAt).sendPendingData lz4 attempts
    some sent.forwardMessages

-- The owner may raise the flag at any time.
def shutdown (driver : CarrierDriver) : CarrierDriver := { driver with shutdownFlag := true }

end CarrierDriver
end NwNetwork.Carrier
