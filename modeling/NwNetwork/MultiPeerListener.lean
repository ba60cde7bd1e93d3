import NwNetwork.CarrierDriver
import NwNetwork.ServerPeers

namespace NwNetwork.Carrier

def DriverError.text : DriverError → String
  | .io source => "IO error: " ++ source
  | .ssl message => "SSL/DTLS error: " ++ message
  | .invalidState message => "Invalid state: " ++ message
  | .address message => "Address error: " ++ message
  | .timeout => "Connection timeout"
  | .connectionClosed => "Connection closed"
  | .handshakeFailed message => "Handshake failed: " ++ message

end NwNetwork.Carrier

namespace NwNetwork.Gridmate
open WireReader Serialize Carrier

-- A peer task is named by its place in the order in which its address was registered.
abbrev PeerId := Nat

def sslErrorWantRead : Int := 2
def sslErrorWantWrite : Int := 3
def perPeerDtlsQueue : Nat := 256
def listenerEventCapacity : Nat := 4096
def sslRecvBuf : Nat := 65536

def wants (err : Int) : Bool := err == sslErrorWantRead || err == sslErrorWantWrite

-- `MemBio::feed`, with what BIO_write returned.
def bioFeed (written : Int) (data : Bytes) : Except DriverError Unit :=
  if written ≠ data.length then
    .error (.ssl ("BIO_write incomplete: " ++ toString written ++ "/" ++ toString data.length ++ " bytes"))
  else .ok ()

-- Where a peer task stands: at an await or before its next use of what it shares
-- with other tasks. `unspawned` is a task whose channels exist already.
inductive PeerPhase where
  | unspawned
  | starting
  | accepting
  | flushingAccept (outgoing : Bytes) (ret err : Int) (errors : List String)
  | handshaking
  | announcing
  | serving
  | reading
  | delivering (plaintext : Bytes)
  | flushingWrite (outgoing : Bytes)
  | removing (result : Except String Unit)
  | parting (result : Except String Unit)
  | leaving
  | finished

-- `inbound` and `outbound` are the queues of its two channels. What OpenSSL was fed,
-- gave back and was told to write is kept for the proofs only.
structure PeerTask (Addr : Type) where
  peerAddr : Addr
  phase : PeerPhase
  inbound : List Bytes
  outbound : List Bytes
  fed : List Bytes
  opened : List Bytes
  written : List Bytes

inductive DemuxPhase (Addr : Type) where
  | receiving
  | looking (peer_addr : Addr) (datagram : Bytes)
  | forwarding (peer : PeerId) (peer_addr : Addr) (datagram : Bytes)
  | dropping (peer_addr : Addr)
  | registering (peer_addr : Addr) (datagram : Bytes)
  | seeding (peer : PeerId) (datagram : Bytes)
  | failing (description : String)
  | exited

-- `held` is whether the application still has the listener, `sending` the calls of
-- `send_to` that wait for room. `received`, `sent`, `log` and `heard` are what came
-- from and went to the socket, entered the event channel and left it.
structure MultiPeerListener (Addr : Type) where
  peers : Addr → Option PeerId
  tasks : List (PeerTask Addr)
  demux : DemuxPhase Addr
  held : Bool
  sending : List (PeerId × Bytes)
  events : List (MultiPeerEvent Addr)
  received : List (Addr × Bytes)
  sent : List (Addr × Bytes)
  log : List (Option PeerId × MultiPeerEvent Addr)
  heard : List (MultiPeerEvent Addr)

inductive Created where
  | session
  | newFailed (err : String)
  | bioFailed (err : DriverError)

-- What happens to a peer task, with what OpenSSL and the socket answer; `proceed` is
-- its next event or map operation.
inductive PeerAction where
  | create (created : Created)
  | accept (ret err : Int) (errors : List String) (outgoing : Bytes)
  | flushed (failed : Option String)
  | inbound (written : Int)
  | inboundClosed
  | read (plaintext : Bytes)
  | readStopped (err : Int) (code : Nat)
  | outbound (ret err : Int) (outgoing : Bytes)
  | outboundClosed
  | proceed

inductive ListenerAction (Addr : Type) where
  | datagram (peer_addr : Addr) (datagram : Bytes)
  | recvFailed (err : String)
  | shutdown
  | demux
  | peer (peer : PeerId) (action : PeerAction)
  | sendTo (peer_addr : Addr) (plaintext : Bytes)
  | sendResumed (place : Nat)
  | sendCancelled (place : Nat)
  | trySendTo (peer_addr : Addr) (plaintext : Bytes)
  | nextEvent
  | hangUp

-- The task has not come to its own `peers.remove` yet.
def PeerPhase.registered : PeerPhase → Bool
  | .parting _ | .leaving | .finished => false
  | _ => true

def PeerPhase.isFinished : PeerPhase → Bool
  | .finished => true
  | _ => false

def joinErrors (errors : List String) : String :=
  if errors.isEmpty then "<empty ERR queue>" else "; ".intercalate errors

def hex (code : Nat) : String := String.ofList (Nat.toDigits 16 code)

-- What `accept_handshake` does with the result of SSL_accept.
def afterAccept (ret err : Int) (errors : List String) : PeerPhase :=
  if ret = 1 then .announcing
  else if !wants err then .removing (.error ("SSL_accept error " ++ toString err ++ ": " ++ joinErrors errors))
  else .handshaking

def afterFeed (written : Int) (datagram : Bytes) (next : PeerPhase) : PeerPhase :=
  match bioFeed written datagram with
  | .error err => .removing (.error ("bio_feed: " ++ err.text))
  | .ok () => next

namespace PeerTask
variable {Addr : Type}

def new (peer_addr : Addr) : PeerTask Addr := ⟨peer_addr,.unspawned,[],[],[],[],[]⟩

-- The next datagram goes to the read BIO.
def feed (task : PeerTask Addr) (written : Int) (next : PeerPhase) : Option (PeerTask Addr) :=
  match task.inbound with
  | [] => none
  | datagram :: rest =>
    some {task with inbound := rest,fed := task.fed ++ [datagram],phase := afterFeed written datagram next}

def write (task : PeerTask Addr) (ret err : Int) (outgoing : Bytes) : Option (PeerTask Addr) :=
  match task.outbound with
  | [] => none
  | plaintext :: rest =>
    if ret ≤ 0 then some {task with outbound := rest,phase := .removing (.error ("SSL_write " ++ toString err))}
    else some {task with
      outbound := rest
      written := task.written ++ [plaintext]
      phase := if outgoing.isEmpty then .serving else .flushingWrite outgoing}

-- What a task does on its own, and the bytes it puts on the socket. `or` asks the
-- inbound channel first, but a datagram may come right after it was asked.
def act (task : PeerTask Addr) (inboundOpen outboundOpen : Bool) : PeerAction → Option (PeerTask Addr × Option Bytes)
  | .create created =>
    match task.phase,created with
    | .starting,.session => some ({task with phase := .accepting},none)
    | .starting,.newFailed err => some ({task with phase := .removing (.error ("Ssl::new: " ++ err))},none)
    | .starting,.bioFailed err => some ({task with phase := .removing (.error ("bio_new: " ++ err.text))},none)
    | _,_ => none
  | .accept ret err errors outgoing =>
    match task.phase with
    | .accepting =>
      let next := if outgoing.isEmpty then afterAccept ret err errors else .flushingAccept outgoing ret err errors
      some ({task with phase := next},none)
    | _ => none
  | .flushed failed =>
    match task.phase,failed with
    | .flushingAccept outgoing ret err errors,none =>
      some ({task with phase := afterAccept ret err errors},some outgoing)
    | .flushingWrite outgoing,none => some ({task with phase := .serving},some outgoing)
    | .flushingAccept _ _ _ _,some err => some ({task with phase := .removing (.error ("send_to: " ++ err))},none)
    | .flushingWrite _,some err => some ({task with phase := .removing (.error ("send_to: " ++ err))},none)
    | _,_ => none
  | .inbound written =>
    match task.phase with
    | .handshaking => (task.feed written .accepting).map (·,none)
    | .serving => (task.feed written .reading).map (·,none)
    | _ => none
  | .inboundClosed =>
    if inboundOpen || !task.inbound.isEmpty then none
    else
      match task.phase with
      | .handshaking =>
        some ({task with phase := .removing (.error "inbound channel closed during handshake")},none)
      | .serving => some ({task with phase := .removing (.ok ())},none)
      | _ => none
  | .read plaintext =>
    match task.phase with
    | .reading =>
      if plaintext.isEmpty || sslRecvBuf < plaintext.length then none
      else some ({task with phase := .delivering plaintext,opened := task.opened ++ [plaintext]},none)
    | _ => none
  | .readStopped err code =>
    match task.phase with
    | .reading =>
      let next :=
        if wants err then .serving
        else .removing (.error ("SSL_read " ++ toString err ++ " (0x" ++ hex code ++ ")"))
      some ({task with phase := next},none)
    | _ => none
  | .outbound ret err outgoing =>
    match task.phase with
    | .serving => (task.write ret err outgoing).map (·,none)
    | _ => none
  | .outboundClosed =>
    if outboundOpen || !task.outbound.isEmpty then none
    else
      match task.phase with
      | .serving => some ({task with phase := .removing (.ok ())},none)
      | _ => none
  | .proceed => none

end PeerTask

namespace MultiPeerListener
variable {Addr : Type} [DecidableEq Addr]

-- `bind`, once the socket and the SSL context are there.
def bound : MultiPeerListener Addr := ⟨fun _ => none,[],.receiving,true,[],[],[],[],[],[]⟩

def setTask (listener : MultiPeerListener Addr) (peer : PeerId) (task : PeerTask Addr) : MultiPeerListener Addr :=
  {listener with tasks := listener.tasks.set peer task}

def insert (listener : MultiPeerListener Addr) (peer_addr : Addr) (peer : PeerId) : MultiPeerListener Addr :=
  {listener with peers := fun addr => if addr = peer_addr then some peer else listener.peers addr}

def remove (listener : MultiPeerListener Addr) (peer_addr : Addr) : MultiPeerListener Addr :=
  {listener with peers := fun addr => if addr = peer_addr then none else listener.peers addr}

def exited (listener : MultiPeerListener Addr) : Bool :=
  match listener.demux with
  | .exited => true
  | _ => false

-- The peer map is shared by the listener, the demux task and every peer task.
def mapHeld (listener : MultiPeerListener Addr) : Bool :=
  listener.held || !listener.exited || listener.tasks.any fun task => !task.phase.isFinished

def holdsEntry (listener : MultiPeerListener Addr) (peer : PeerId) (task : PeerTask Addr) : Bool :=
  listener.mapHeld && listener.peers task.peerAddr == some peer

-- A channel is open as long as a sender is left: in the map's entry, in the demux
-- task's hands or in those of a waiting call.
def inboundOpen (listener : MultiPeerListener Addr) (peer : PeerId) (task : PeerTask Addr) : Bool :=
  listener.holdsEntry peer task ||
    match listener.demux with
    | .forwarding other _ _ => other == peer
    | .seeding other _ => other == peer
    | _ => false

def outboundOpen (listener : MultiPeerListener Addr) (peer : PeerId) (task : PeerTask Addr) : Bool :=
  listener.holdsEntry peer task || listener.sending.any fun waiting => waiting.1 == peer

-- `event_tx.send`: nothing is heard once the listener is gone, and a full channel
-- makes the sender wait.
def emit (listener : MultiPeerListener Addr) (peer : Option PeerId) (event : MultiPeerEvent Addr) :
    Option (MultiPeerListener Addr) :=
  if !listener.held then some listener
  else if listener.events.length < listenerEventCapacity then
    some {listener with events := listener.events ++ [event],log := listener.log ++ [(peer,event)]}
  else none

def reasonOf : Except String Unit → String
  | .ok () => "peer task ended"
  | .error reason => reason

def proceed (listener : MultiPeerListener Addr) (peer : PeerId) (task : PeerTask Addr) :
    Option (MultiPeerListener Addr) :=
  match task.phase with
  | .announcing =>
    (listener.emit (some peer) (.established task.peerAddr)).map (·.setTask peer {task with phase := .serving})
  | .delivering plaintext =>
    (listener.emit (some peer) (.data task.peerAddr plaintext)).map
      (·.setTask peer {task with phase := if listener.held then .reading else .serving})
  | .removing result => some ((listener.remove task.peerAddr).setTask peer {task with phase := .parting result})
  | .parting result =>
    (listener.emit (some peer) (.disconnected task.peerAddr (reasonOf result))).map
      (·.setTask peer {task with phase := .leaving})
  | .leaving => some (listener.setTask peer {task with phase := .finished})
  | _ => none

def peerStep (listener : MultiPeerListener Addr) (peer : PeerId) (task : PeerTask Addr) :
    PeerAction → Option (MultiPeerListener Addr)
  | .proceed => listener.proceed peer task
  | action => do
    let (after,outgoing) ← task.act (listener.inboundOpen peer task) (listener.outboundOpen peer task) action
    pure ({listener with sent := listener.sent ++ (outgoing.map (task.peerAddr,·)).toList}.setTask peer after)

def demuxStep (listener : MultiPeerListener Addr) : Option (MultiPeerListener Addr) :=
  match listener.demux with
  | .receiving | .exited => none
  | .looking peer_addr datagram =>
    match listener.peers peer_addr with
    | some peer => some {listener with demux := .forwarding peer peer_addr datagram}
    | none => some {listener with demux := .registering peer_addr datagram}
  | .forwarding peer peer_addr datagram => do
    let task ← listener.tasks[peer]?
    if task.phase.isFinished then some {listener with demux := .dropping peer_addr}
    else if task.inbound.length < perPeerDtlsQueue then
      some ({listener with demux := .receiving}.setTask peer {task with inbound := task.inbound ++ [datagram]})
    else none
  | .dropping peer_addr => some ({listener with demux := .receiving}.remove peer_addr)
  | .registering peer_addr datagram =>
    let peer := listener.tasks.length
    some ({listener with tasks := listener.tasks ++ [PeerTask.new peer_addr],demux := .seeding peer datagram}.insert peer_addr peer)
  | .seeding peer datagram => do
    let task ← listener.tasks[peer]?
    if task.inbound.length < perPeerDtlsQueue then
      some ({listener with demux := .receiving}.setTask peer
        {task with inbound := task.inbound ++ [datagram],phase := .starting})
    else none
  | .failing description => (listener.emit none (.error description)).map ({· with demux := .exited})

section Sending
variable (text : Addr → String)

-- `send_to` up to its await: the peer whose outbound channel it waits for.
def sendTo (listener : MultiPeerListener Addr) (peer_addr : Addr) : Except DriverError PeerId :=
  match listener.peers peer_addr with
  | none => .error (.ssl ("unknown peer " ++ text peer_addr))
  | some peer => .ok peer

def pushOutbound (listener : MultiPeerListener Addr) (peer : PeerId) (task : PeerTask Addr) (plaintext : Bytes) :
    MultiPeerListener Addr :=
  listener.setTask peer {task with outbound := task.outbound ++ [plaintext]}

def trySendTo (listener : MultiPeerListener Addr) (peer_addr : Addr) (plaintext : Bytes) :
    Except DriverError (MultiPeerListener Addr) :=
  match listener.peers peer_addr with
  | none => .error (.ssl ("unknown peer " ++ text peer_addr))
  | some peer =>
    match listener.tasks[peer]? with
    | none => .error (.ssl ("peer " ++ text peer_addr ++ " outbound queue closed"))
    | some task =>
      if task.phase.isFinished then .error (.ssl ("peer " ++ text peer_addr ++ " outbound queue closed"))
      else if task.outbound.length < perPeerDtlsQueue then .ok (listener.pushOutbound peer task plaintext)
      else .error (.ssl ("peer " ++ text peer_addr ++ " outbound queue full"))

-- A waiting `send_to` goes on when there is room or the channel was closed.
def sendResumed (listener : MultiPeerListener Addr) (place : Nat) :
    Option (Except DriverError Unit × MultiPeerListener Addr) := do
  let (peer,plaintext) ← listener.sending[place]?
  let task ← listener.tasks[peer]?
  let resumed := {listener with sending := listener.sending.eraseIdx place}
  if task.phase.isFinished then
    some (.error (.ssl ("peer " ++ text task.peerAddr ++ " closed: sending into a closed channel")),resumed)
  else if task.outbound.length < perPeerDtlsQueue then some (.ok (),resumed.pushOutbound peer task plaintext)
  else none

-- Whatever may happen next; `none` is an action that the state does not allow. A
-- call of `send_to` borrows the listener, so that it cannot be dropped meanwhile.
def step (listener : MultiPeerListener Addr) : ListenerAction Addr → Option (MultiPeerListener Addr)
  | .datagram peer_addr datagram =>
    match listener.demux with
    | .receiving =>
      some {listener with demux := .looking peer_addr datagram,received := listener.received ++ [(peer_addr,datagram)]}
    | _ => none
  | .recvFailed err =>
    match listener.demux with
    | .receiving => some {listener with demux := .failing ("recv_from: " ++ err)}
    | _ => none
  | .shutdown =>
    match listener.demux with
    | .receiving => if listener.held then none else some {listener with demux := .exited}
    | _ => none
  | .demux => listener.demuxStep
  | .peer peer action => do
    let task ← listener.tasks[peer]?
    listener.peerStep peer task action
  | .sendTo peer_addr plaintext =>
    if !listener.held then none
    else
      match listener.sendTo text peer_addr with
      | .error _ => some listener
      | .ok peer => some {listener with sending := listener.sending ++ [(peer,plaintext)]}
  | .sendResumed place => (listener.sendResumed text place).map Prod.snd
  | .sendCancelled place => some {listener with sending := listener.sending.eraseIdx place}
  | .trySendTo peer_addr plaintext =>
    if !listener.held then none
    else
      match listener.trySendTo text peer_addr plaintext with
      | .error _ => some listener
      | .ok after => some after
  | .nextEvent =>
    if !listener.held then none
    else
      match listener.events with
      | [] => none
      | event :: rest => some {listener with events := rest,heard := listener.heard ++ [event]}
  | .hangUp => if listener.sending.isEmpty then some {listener with held := false} else none

end Sending
end MultiPeerListener
end NwNetwork.Gridmate
