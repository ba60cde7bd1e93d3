import NwNetwork.MultiPeerListener

namespace NwNetwork.Gridmate
open WireReader Serialize Carrier

namespace ConnectionSecurity

def dtls1RtHeaderLength : Nat := 13
def handshakeRecord : UInt8 := 22
def helloRequest : UInt8 := 0
def helloVerifyRequest : UInt8 := 3

structure RecordHeader where
  recordType : UInt8
  version : Nat
  epoch : Nat
  sequenceNumber : Nat
  length : Nat
  deriving DecidableEq, Repr

def bigEndian (bytes : Bytes) : Nat := bytes.foldl (fun value byte => value*256 + byte.toNat) 0

def RecordHeader.parse (data : Bytes) : Option RecordHeader :=
  match data with
  | recordType :: v0 :: v1 :: e0 :: e1 :: s0 :: s1 :: s2 :: s3 :: s4 :: s5 :: l0 :: l1 :: _ =>
    some ⟨recordType,bigEndian [v0,v1],bigEndian [e0,e1],bigEndian [s0,s1,s2,s3,s4,s5],bigEndian [l0,l1]⟩
  | _ => none

def isHandshake (data : Bytes) : Bool :=
  match RecordHeader.parse data with
  | some header => header.recordType == handshakeRecord
  | none => false

def isHelloVerifyRequest (data : Bytes) : Bool :=
  if data.length < 14 || !isHandshake data then false
  else data[13]? == some helloVerifyRequest

def isHelloRequestHandshake (data : Bytes) : Bool :=
  data.length == 25 && data[0]? == some handshakeRecord && data[13]? == some helloRequest &&
    data[14]? == some 0 && data[15]? == some 0 && data[16]? == some 0

end ConnectionSecurity

-- `state::ConnectionState`; the carrier's own connection state has that name here.
inductive StateMachineState where
  | top
  | active
  | sendHelloRequest
  | accept
  | cookieExchange
  | connect
  | established
  | disconnected
  deriving DecidableEq, Repr

inductive ConnectionEvent where
  | enter
  | exit
  | update
  | newIncomingDgram
  | newOutgoingDgram
  | statefulHandshake
  | cookieExchangeCompleted
  deriving DecidableEq, Repr

inductive StateResult where
  | handled
  | unhandled
  | transition
  | sendHelloRequest
  | sslAccept
  | sslConnect
  | sslRead
  | sslWrite
  | forceDtlsTimeout
  | recreateSsl
  deriving DecidableEq, Repr

structure StateMachine where
  currentState : StateMachineState
  previousState : StateMachineState
  creationTime : Nat
  nextHelloRequestResend : Nat
  helloRequestResendInterval : Nat
  nextHandshakeRetry : Nat
  handshakeRetryInterval : Nat
  timeoutMs : Nat
  deriving DecidableEq, Repr

namespace StateMachine

def newClient (now timeout_ms : Nat) : StateMachine where
  currentState := .cookieExchange
  previousState := .top
  creationTime := now
  nextHelloRequestResend := now
  helloRequestResendInterval := milliseconds 100
  nextHandshakeRetry := now + milliseconds (timeout_ms / 10)
  handshakeRetryInterval := milliseconds (timeout_ms / 10)
  timeoutMs := timeout_ms

def newServer (now timeout_ms : Nat) : StateMachine where
  currentState := .sendHelloRequest
  previousState := .top
  creationTime := now
  nextHelloRequestResend := now
  helloRequestResendInterval := milliseconds 100
  nextHandshakeRetry := now + milliseconds 30
  handshakeRetryInterval := milliseconds 30
  timeoutMs := timeout_ms

def transition (machine : StateMachine) (new_state : StateMachineState) : StateMachine :=
  {machine with previousState := machine.currentState,currentState := new_state}

-- Elapsed time counts in whole milliseconds.
def checkTimeout (machine : StateMachine) (now : Nat) : Bool :=
  (now - machine.creationTime) / 1000000 > machine.timeoutMs

def shouldRetryHandshake (machine : StateMachine) (now : Nat) : Bool := now ≥ machine.nextHandshakeRetry

def updateRetryTimer (machine : StateMachine) (now : Nat) : StateMachine :=
  {machine with
    handshakeRetryInterval := milliseconds (machine.timeoutMs / 10)
    nextHandshakeRetry := now + milliseconds (machine.timeoutMs / 10)}

-- A handler that reads the clock twice reads `now` first and then `later`.
section Handlers
variable (now later : Nat)

def onStateActive (machine : StateMachine) : ConnectionEvent → StateResult × StateMachine
  | .enter => (.handled,{machine with creationTime := now})
  | .update => if machine.checkTimeout now then (.transition,machine.transition .disconnected) else (.unhandled,machine)
  | _ => (.unhandled,machine)

def onStateSendHelloRequest (machine : StateMachine) : ConnectionEvent → StateResult × StateMachine
  | .enter =>
    (.sendHelloRequest,{machine with
      helloRequestResendInterval := milliseconds 100,nextHelloRequestResend := now + milliseconds 100})
  | .statefulHandshake => (.transition,machine.transition .accept)
  | .update =>
    if now > machine.nextHelloRequestResend then
      (.sendHelloRequest,{machine with
        nextHelloRequestResend := later + machine.helloRequestResendInterval
        helloRequestResendInterval := min (machine.helloRequestResendInterval*2) (milliseconds 1000)})
    else (.unhandled,machine)
  | _ => (.unhandled,machine)

def onStateAccept (machine : StateMachine) : ConnectionEvent → StateResult × StateMachine
  | .enter | .newIncomingDgram | .update => (.sslAccept,machine)
  | _ => (.unhandled,machine)

def retry (machine : StateMachine) : StateResult × StateMachine :=
  if machine.shouldRetryHandshake now then (.forceDtlsTimeout,machine.updateRetryTimer later) else (.unhandled,machine)

def onStateCookieExchange (machine : StateMachine) : ConnectionEvent → StateResult × StateMachine
  | .enter => (.sslConnect,machine.updateRetryTimer now)
  | .cookieExchangeCompleted => (.transition,machine.transition .connect)
  | .newIncomingDgram => (.sslConnect,machine)
  | .update => machine.retry now later
  | _ => (.unhandled,machine)

def onStateConnect (machine : StateMachine) : ConnectionEvent → StateResult × StateMachine
  | .enter => (.sslConnect,machine.updateRetryTimer now)
  | .newIncomingDgram => (.sslConnect,machine)
  | .update => machine.retry now later
  | _ => (.unhandled,machine)

def onStateEstablished (machine : StateMachine) : ConnectionEvent → StateResult × StateMachine
  | .enter => (.handled,machine)
  | .newIncomingDgram => (.sslRead,machine)
  | .newOutgoingDgram => (.sslWrite,machine)
  | _ => (.unhandled,machine)

def onStateDisconnected (machine : StateMachine) : ConnectionEvent → StateResult × StateMachine
  | .enter => (.handled,machine)
  | _ => (.unhandled,machine)

def dispatch (machine : StateMachine) (event : ConnectionEvent) : StateResult × StateMachine :=
  match machine.currentState with
  | .top => (.unhandled,machine)
  | .active => machine.onStateActive now event
  | .sendHelloRequest => machine.onStateSendHelloRequest now later event
  | .accept => machine.onStateAccept event
  | .cookieExchange => machine.onStateCookieExchange now later event
  | .connect => machine.onStateConnect now later event
  | .established => machine.onStateEstablished event
  | .disconnected => machine.onStateDisconnected event

end Handlers
end StateMachine

-- What OpenSSL and the socket answer around one call of SSL_connect: its return
-- value, the codes that are asked for when it failed, and the flush after it.
structure SslAnswer where
  ret : Int
  err : Int
  code : Nat
  outgoing : Bytes
  sent : Option String

-- One SSL object: what SSL_connect has returned so far, and what was fed to it.
structure SslSession where
  connects : List Int
  fed : List Bytes
  deriving DecidableEq

-- `given` and `received` are the datagrams that went to some SSL object and those
-- that came from the socket, `forced` the times of the forced timeouts.
structure SecureConnection where
  machine : StateMachine
  ssl : SslSession
  sent : List Bytes
  received : List Bytes
  given : List Bytes
  forced : List Nat

-- What ends a wait of the handshake's loop, with the clock readings and the answers
-- that the loop asks for.
inductive HandshakeEvent where
  | received (packet : Bytes) (written : Int) (now : Nat) (created : Created) (special incoming : SslAnswer)
  | recvFailed (err : String)
  | timer (now later : Nat) (answer : SslAnswer)

namespace SecureConnection

def new (now : Nat) : SecureConnection := ⟨.newClient now 5000,⟨[],[]⟩,[],[],[],[]⟩

def flushEncryptedData (answer : SslAnswer) (connection : SecureConnection) : Except DriverError Unit × SecureConnection :=
  if answer.outgoing.isEmpty then (.ok (),connection)
  else
    match answer.sent with
    | some err => (.error (.io err),connection)
    | none => (.ok (),{connection with sent := connection.sent ++ [answer.outgoing]})

def handleSslError (answer : SslAnswer) (connection : SecureConnection) : Except DriverError Unit × SecureConnection :=
  if wants answer.err then (.ok (),connection)
  else
    (.error (.ssl ("SSL error " ++ toString answer.err ++ " (code: 0x" ++ hex answer.code ++ ")")),
      {connection with machine := connection.machine.transition .disconnected})

def sslConnect (answer : SslAnswer) (connection : SecureConnection) : Except DriverError Unit × SecureConnection :=
  let called := {connection with ssl.connects := connection.ssl.connects ++ [answer.ret]}
  if answer.ret = 1 then flushEncryptedData answer {called with machine := called.machine.transition .established}
  else
    match handleSslError answer called with
    | (.error err,after) => (.error err,after)
    | (.ok (),after) => flushEncryptedData answer after

def createSsl (created : Created) (connection : SecureConnection) : Except DriverError Unit × SecureConnection :=
  match created with
  | .newFailed err => (.error (.ssl ("Failed to create SSL: " ++ err)),connection)
  | .bioFailed err => (.error err,connection)
  | .session => (.ok (),{connection with ssl := ⟨[],[]⟩})

def handleStateResultDirect (created : Created) (answer : SslAnswer) (now : Nat) (connection : SecureConnection) :
    StateResult → Except DriverError Unit × SecureConnection
  | .sslConnect => sslConnect answer connection
  | .recreateSsl =>
    match createSsl created connection with
    | (.error err,after) => (.error err,after)
    | (.ok (),after) => sslConnect answer after
  | .forceDtlsTimeout => flushEncryptedData answer {connection with forced := connection.forced ++ [now]}
  | _ => (.ok (),connection)

-- `Enter` never gives Transition, so that the loop goes round at most once.
def handleStateResult (created : Created) (answer : SslAnswer) (now : Nat) (connection : SecureConnection) :
    StateResult → Except DriverError Unit × SecureConnection
  | .handled | .unhandled => (.ok (),connection)
  | .transition =>
    let entered := connection.machine.dispatch now now .enter
    handleStateResultDirect created answer now {connection with machine := entered.2} entered.1
  | result => handleStateResultDirect created answer now connection result

-- The packets that the loop looks at before OpenSSL does: whether to keep the
-- packet, and what to do first.
def classify (packet : Bytes) (now : Nat) (connection : SecureConnection) : Bool × Option StateResult × SecureConnection :=
  let dispatched := connection.machine.dispatch now now .cookieExchangeCompleted
  let completed := {connection with machine := dispatched.2}
  if ConnectionSecurity.isHelloVerifyRequest packet && connection.machine.currentState == .cookieExchange then
    (true,some dispatched.1,completed)
  else if ConnectionSecurity.isHelloRequestHandshake packet then
    match connection.machine.currentState with
    | .cookieExchange => (false,some dispatched.1,completed)
    | .connect => (false,some .recreateSsl,connection)
    | _ => (true,none,connection)
  else (true,none,connection)

-- `bio_feed` and the dispatch of NewIncomingDgram.
def feed (packet : Bytes) (written : Int) (now : Nat) (answer : SslAnswer) (connection : SecureConnection) :
    Except DriverError Unit × SecureConnection :=
  match bioFeed written packet with
  | .error err => (.error err,connection)
  | .ok () =>
    let fed := {connection with
      ssl.fed := connection.ssl.fed ++ [packet], given := connection.given ++ [packet] }
    let dispatched := fed.machine.dispatch now now .newIncomingDgram
    handleStateResult .session answer now {fed with machine := dispatched.2} dispatched.1

def handle (connection : SecureConnection) : HandshakeEvent → Except DriverError Unit × SecureConnection
  | .recvFailed err => (.error (.io err),connection)
  | .timer now later answer =>
    let dispatched := connection.machine.dispatch now later .update
    handleStateResult .session answer now {connection with machine := dispatched.2} dispatched.1
  | .received packet written now created special incoming =>
    let heard := {connection with received := connection.received ++ [packet]}
    match heard.classify packet now with
    | (keep,some result,after) =>
      match handleStateResult created special now after result with
      | (.error err,failed) => (.error err,failed)
      | (.ok (),done) => if keep then feed packet written now incoming done else (.ok (),done)
    | (keep,none,after) => if keep then feed packet written now incoming after else (.ok (),after)

-- The loop of `process_connection`: its checks, then what it waited for.
def turn (connection : SecureConnection) (checkedAt : Nat) (event : HandshakeEvent) :
    Option (Except DriverError Unit) × SecureConnection :=
  if connection.machine.currentState = .established then (some (.ok ()),connection)
  else if connection.machine.currentState = .disconnected then
    (some (.error (.ssl "Connection closed during handshake")),connection)
  else if connection.machine.checkTimeout checkedAt then (some (.error (.ssl "Connection timeout")),connection)
  else
    match connection.handle event with
    | (.error err,after) => (some (.error err),after)
    | (.ok (),after) => (none,after)

def start (created now : Nat) (answer : SslAnswer) : Except DriverError Unit × SecureConnection :=
  let connection := new created
  let dispatched := connection.machine.dispatch now now .enter
  handleStateResult .session answer now {connection with machine := dispatched.2} dispatched.1

def processTurns (connection : SecureConnection) :
    List (Nat × HandshakeEvent) → Option (Except DriverError Unit) × SecureConnection
  | [] => (none,connection)
  | (checkedAt,event) :: rest =>
    match connection.turn checkedAt event with
    | (some result,after) => (some result,after)
    | (none,after) => after.processTurns rest

-- What has become of the handshake after some turns: `none` while it goes on.
def processConnection (created now : Nat) (answer : SslAnswer) (turns : List (Nat × HandshakeEvent)) :
    Option (Except DriverError Unit) × SecureConnection :=
  match start created now answer with
  | (.error err,failed) => (some (.error err),failed)
  | (.ok (),connection) => connection.processTurns turns

end SecureConnection
end NwNetwork.Gridmate
