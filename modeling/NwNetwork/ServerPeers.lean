import NwNetwork.ServerInbound

namespace NwNetwork.Gridmate
open WireReader Serialize Carrier

-- A driver task is named by its place in the order of spawning; its outbound queue
-- is named by it too.
abbrev DriverId := Nat

structure PeerEntry where
  session : SessionId
  outbound : DriverId
  deriving DecidableEq, Repr

structure PeerRegistry (Addr : Type) where
  byAddr : Addr → Option PeerEntry
  bySession : SessionId → Option Addr
  nextSession : Nat

namespace PeerRegistry
variable {Addr : Type} [DecidableEq Addr]

def new : PeerRegistry Addr := ⟨fun _ => none,fun _ => none,0⟩

def sessionFor (peers : PeerRegistry Addr) (peer_addr : Addr) : Option SessionId :=
  (peers.byAddr peer_addr).map PeerEntry.session

def peerAddrFor (peers : PeerRegistry Addr) (session : SessionId) : Option Addr := peers.bySession session

def outboundFor (peers : PeerRegistry Addr) (session : SessionId) : Option DriverId := do
  let peer_addr ← peers.bySession session
  let entry ← peers.byAddr peer_addr
  pure entry.outbound

-- `register` and `remove` are two map operations each, and other tasks may come
-- between them. The counter is a 64-bit one and wraps.
def registerAddr (peers : PeerRegistry Addr) (peer_addr : Addr) (outbound : DriverId) : SessionId × PeerRegistry Addr :=
  (peers.nextSession,
    {peers with
      nextSession := (peers.nextSession + 1) % 2^64
      byAddr := fun addr => if addr = peer_addr then some ⟨peers.nextSession,outbound⟩ else peers.byAddr addr})

def registerSession (peers : PeerRegistry Addr) (session : SessionId) (peer_addr : Addr) : PeerRegistry Addr :=
  {peers with bySession := fun other => if other = session then some peer_addr else peers.bySession other}

def removeAddr (peers : PeerRegistry Addr) (peer_addr : Addr) : PeerRegistry Addr :=
  {peers with byAddr := fun addr => if addr = peer_addr then none else peers.byAddr addr}

def removeSession (peers : PeerRegistry Addr) (session : SessionId) : PeerRegistry Addr :=
  {peers with bySession := fun other => if other = session then none else peers.bySession other}

end PeerRegistry

-- Where a driver task stands: between `remove`'s operations, or with events to
-- send, after which it goes on or not, and goes on or not when nobody listens.
inductive DriverPhase where
  | connecting
  | running
  | removing (session : SessionId) (reason : String)
  | sending (events : List Event) (goes_on goes_on_unheard : Bool)
  | finished
  deriving DecidableEq

-- `session` is the session that the driver was spawned for, once it is registered;
-- the source's driver does not know it.
structure Driver (Addr : Type) where
  peerAddr : Addr
  session : Option SessionId
  phase : DriverPhase

inductive BridgePhase (Addr : Type) where
  | waiting
  | registering (peer_addr : Addr) (driver : DriverId)
  | inserting (peer_addr : Addr) (session : SessionId)
  | removing (session : SessionId) (reason : String)
  | sending (event : Event)
  | stopped

-- `registered` counts the registrations, `departed` has the sessions for which a
-- driver has passed on its carrier's Disconnected: no modelled function reads them.
structure Server (Addr : Type) where
  peers : PeerRegistry Addr
  peerInbound : Addr → Option DriverId
  bridge : BridgePhase Addr
  drivers : List (Driver Addr)
  listening : Bool
  events : List Event
  registered : Nat
  departed : SessionId → Bool

inductive MultiPeerEvent (Addr : Type) where
  | established (peer_addr : Addr)
  | data (peer_addr : Addr) (plaintext : Bytes)
  | disconnected (peer_addr : Addr) (reason : String)
  | error (description : String)

structure OutboundTyped where
  channel : UInt8
  reliability : DataReliability
  priority : Nat
  envelope : Bytes

-- What happens to a driver task; `proceed` is its next map operation or send.
inductive DriverAction where
  | acceptFailed
  | readyFailed (err : String)
  | ready
  | inbound (msg : CarrierEvent)
  | inboundClosed
  | outbound (cmd : OutboundTyped) (failed : Option String)
  | outboundClosed
  | proceed

inductive ServerAction (Addr : Type) where
  | event (event : MultiPeerEvent Addr)
  | bridge
  | driver (driver : DriverId) (action : DriverAction)
  | shutdown
  | hangUp

namespace Server
variable {Addr : Type} [DecidableEq Addr]

def new : Server Addr := ⟨.new,fun _ => none,.waiting,[],true,[],0,fun _ => false⟩

def finishedDriver (server : Server Addr) (driver : DriverId) : Bool :=
  match server.drivers[driver]? with
  | some task => task.phase = .finished
  | none => true

def handleEvent (server : Server Addr) : MultiPeerEvent Addr → Server Addr
  | .established peer_addr =>
    let driver := server.drivers.length
    {server with
      drivers := server.drivers ++ [⟨peer_addr,none,.connecting⟩]
      peerInbound := fun addr => if addr = peer_addr then some driver else server.peerInbound addr
      bridge := .registering peer_addr driver}
  | .data peer_addr _ =>
    if ((server.peerInbound peer_addr).map server.finishedDriver).getD false then
      {server with peerInbound := fun addr => if addr = peer_addr then none else server.peerInbound addr}
    else server
  | .disconnected peer_addr reason =>
    let closed := {server with peerInbound := fun addr => if addr = peer_addr then none else server.peerInbound addr}
    match server.peers.byAddr peer_addr with
    | none => closed
    | some entry => {closed with peers := server.peers.removeAddr peer_addr,bridge := .removing entry.session reason}
  | .error description => {server with bridge := .sending (.error description)}

def bridgeStep (server : Server Addr) : Server Addr :=
  match server.bridge with
  | .registering peer_addr driver =>
    let (session,peers) := server.peers.registerAddr peer_addr driver
    {server with
      peers := peers
      registered := server.registered + 1
      drivers := server.drivers.modify driver fun task => {task with session := some session}
      bridge := .inserting peer_addr session}
  | .inserting peer_addr session =>
    {server with peers := server.peers.registerSession session peer_addr,bridge := .sending (.ready session)}
  | .removing session reason =>
    {server with peers := server.peers.removeSession session,bridge := .sending (.disconnected session reason)}
  | .sending event =>
    if server.listening then {server with events := server.events ++ [event],bridge := .waiting}
    else {server with bridge := .stopped}
  | .waiting | .stopped => server

def setPhase (server : Server Addr) (driver : DriverId) (phase : DriverPhase) : Server Addr :=
  {server with drivers := server.drivers.modify driver fun task => {task with phase := phase}}

-- `peers.remove(peer_addr)`, and the event for the session that was there.
def driverRemoves (server : Server Addr) (driver : DriverId) (task : Driver Addr) (reason : String) : Server Addr :=
  match server.peers.byAddr task.peerAddr with
  | none => server.setPhase driver .finished
  | some entry =>
    {server with peers := server.peers.removeAddr task.peerAddr}.setPhase driver (.removing entry.session reason)

def markDeparted (server : Server Addr) (session : Option SessionId) (msg : CarrierEvent) : SessionId → Bool :=
  match session,msg with
  | some session,.disconnected _ => fun other => if other = session then true else server.departed other
  | _,_ => server.departed

def driverInbound (schema : NetworkSchema) (server : Server Addr) (driver : DriverId) (task : Driver Addr)
    (msg : CarrierEvent) : Server Addr :=
  let session := server.peers.sessionFor task.peerAddr
  let (events,go_on) := handleInbound schema true session msg
  {server with departed := server.markDeparted session msg}.setPhase driver (.sending events go_on false)

def parseOutboundTypeIndex (schema : NetworkSchema) (data : Bytes) : Option (BitVec 32) :=
  match readSizedMessage data with
  | .ok (.ok (_,envelope),_) => envelope.typeId.resolvedTypeIndex schema
  | _ => none

def driverOutbound (schema : NetworkSchema) (server : Server Addr) (driver : DriverId) (task : Driver Addr)
    (cmd : OutboundTyped) : Server Addr :=
  match server.peers.sessionFor task.peerAddr with
  | none => server
  | some session =>
    server.setPhase driver (.sending [.sent session cmd.envelope cmd.channel cmd.reliability cmd.priority
      (parseOutboundTypeIndex schema cmd.envelope)] true true)

def driverProceeds (server : Server Addr) (driver : DriverId) : DriverPhase → Server Addr
  | .removing session reason =>
    {server with peers := server.peers.removeSession session}.setPhase driver
      (.sending [.disconnected session reason] false false)
  | .sending [] goes_on _ => server.setPhase driver (if goes_on then .running else .finished)
  | .sending (event :: events) goes_on goes_on_unheard =>
    if server.listening then
      {server with events := server.events ++ [event]}.setPhase driver (.sending events goes_on goes_on_unheard)
    else server.setPhase driver (if goes_on_unheard then .running else .finished)
  | _ => server

def driverStep (schema : NetworkSchema) (server : Server Addr) (driver : DriverId) (task : Driver Addr)
    (action : DriverAction) : Server Addr :=
  match task.phase,action with
  | .connecting,.acceptFailed => server.setPhase driver .finished
  | .connecting,.readyFailed err => server.driverRemoves driver task ("carrier ready: " ++ err)
  | .connecting,.ready => server.setPhase driver .running
  | .running,.inbound msg => server.driverInbound schema driver task msg
  | .running,.inboundClosed => server.driverRemoves driver task "carrier receiver closed"
  | .running,.outbound cmd none => server.driverOutbound schema driver task cmd
  | .running,.outbound _ (some err) => server.driverRemoves driver task ("send: " ++ err)
  | .running,.outboundClosed => server.setPhase driver .finished
  | phase,.proceed => server.driverProceeds driver phase
  | _,_ => server

-- An action that is not possible where its task stands changes nothing.
def step (schema : NetworkSchema) (server : Server Addr) (action : ServerAction Addr) : Server Addr :=
  match action with
  | .event event =>
    match server.bridge with
    | .waiting => server.handleEvent event
    | _ => server
  | .bridge => server.bridgeStep
  | .driver driver action =>
    match server.drivers[driver]? with
    | some task => server.driverStep schema driver task action
    | none => server
  | .shutdown =>
    match server.bridge with
    | .waiting => {server with bridge := .stopped}
    | _ => server
  | .hangUp => {server with listening := false}

end Server
end NwNetwork.Gridmate
