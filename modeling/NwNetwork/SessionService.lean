import NwNetwork.HubMessageStream

namespace NwNetwork.Gridmate
open WireReader Serialize Carrier

inductive GridMateError where
  | invalidState (description : String)
  | other (description : String)
  deriving DecidableEq, Repr

-- What joining a session comes to: the carrier and the transport are not modelled.
inductive Joined (GridSession : Type) where
  | failed (error : GridMateError)
  | carrierMissing
  | receiverUnavailable
  | session (session : GridSession)

inductive SessionServiceMessage (GridSession : Type) where
  | createSession (joined : Joined GridSession)
  | sendMessage (session_id : SessionId) (data : Bytes) (channel : UInt8) (reliability : DataReliability)
      (priority : Nat) (accepted : Except GridMateError Unit)
  | getNumSessions
  | disconnectAll
  | shutdown

inductive SessionServiceReply where
  | created (result : Except GridMateError SessionId)
  | sent (result : Except GridMateError Unit)
  | numSessions (count : Nat)
  | disconnectedAll
  | stopped
  deriving DecidableEq

-- The task markers are kept for diagnostics in the source; `listening` is whether
-- anyone still holds a receiver of the events, `events` what was sent to them.
structure SessionServiceActor (GridSession : Type) where
  sessions : List (Option GridSession)
  activeSessions : Nat
  sessionTasks : SessionId → Bool
  readyEventsSent : SessionId → Bool
  running : Bool
  listening : Bool
  events : List Event

def markSession (marks : SessionId → Bool) (session_id : SessionId) (mark : Bool) : SessionId → Bool :=
  fun other => if other = session_id then mark else marks other

namespace SessionServiceActor
variable {GridSession : Type}

def new : SessionServiceActor GridSession :=
  { sessions := [],activeSessions := 0,sessionTasks := fun _ => false,readyEventsSent := fun _ => false,
    running := true,listening := true,events := [] }

def send (actor : SessionServiceActor GridSession) (event : Event) : SessionServiceActor GridSession :=
  if actor.listening then {actor with events := actor.events ++ [event]} else actor

def sendReadyIfNeeded (actor : SessionServiceActor GridSession) (session_id : SessionId) :
    SessionServiceActor GridSession :=
  if actor.readyEventsSent session_id then actor
  else
    let sent := actor.send (.ready session_id)
    {sent with readyEventsSent := markSession sent.readyEventsSent session_id true}

def isLiveSession (actor : SessionServiceActor GridSession) (session_id : SessionId) : Bool :=
  match actor.sessions[session_id]? with
  | some (some _) => true
  | _ => false

def takeSession (actor : SessionServiceActor GridSession) (session_id : SessionId) : SessionServiceActor GridSession :=
  {actor with
    sessions := actor.sessions.set session_id none
    activeSessions := actor.activeSessions - 1
    sessionTasks := markSession actor.sessionTasks session_id false
    readyEventsSent := markSession actor.readyEventsSent session_id false}

def closeSession (actor : SessionServiceActor GridSession) (session_id : SessionId) (reason : Option String) :
    SessionServiceActor GridSession :=
  if actor.isLiveSession session_id then
    match reason with
    | some reason => (actor.takeSession session_id).send (.disconnected session_id reason)
    | none => actor.takeSession session_id
  else actor

def pushSession (actor : SessionServiceActor GridSession) (session : GridSession) : SessionServiceActor GridSession :=
  {actor with
    sessionTasks := markSession actor.sessionTasks actor.sessions.length true
    sessions := actor.sessions ++ [some session]
    activeSessions := actor.activeSessions + 1}

def handleCreateSession (actor : SessionServiceActor GridSession) :
    Joined GridSession → Except GridMateError SessionId × SessionServiceActor GridSession
  | .failed error => (.error error,actor)
  | .carrierMissing => (.error (.invalidState "Carrier missing"),actor)
  | .receiverUnavailable => (.error (.invalidState "Carrier receiver unavailable"),actor)
  | .session session => (.ok actor.sessions.length,actor.pushSession session)

def parseSendTypeIndex (schema : NetworkSchema) (data : Bytes) : Option (BitVec 32) :=
  match readCorrelatedMessage data with
  | .ok (.ok (_,envelope),_) => envelope.typeId.resolvedTypeIndex schema
  | _ => none

def handleSendMessage (schema : NetworkSchema) (actor : SessionServiceActor GridSession) (session_id : SessionId)
    (data : Bytes) (channel : UInt8) (reliability : DataReliability) (priority : Nat)
    (accepted : Except GridMateError Unit) : Except GridMateError Unit × SessionServiceActor GridSession :=
  if actor.isLiveSession session_id then
    match accepted with
    | .error error => (.error error,actor)
    | .ok () =>
      (.ok (),actor.send (.sent session_id data channel reliability priority (parseSendTypeIndex schema data)))
  else (.error (.invalidState s!"Session SessionId({session_id}) not found"),actor)

def liveSessions (actor : SessionServiceActor GridSession) : List SessionId :=
  (List.range actor.sessions.length).filter actor.isLiveSession

def handleDisconnectAll (actor : SessionServiceActor GridSession) : SessionServiceActor GridSession :=
  actor.liveSessions.foldl (fun actor session_id => actor.closeSession session_id (some "disconnect_all")) actor

def handleMessage (schema : NetworkSchema) (actor : SessionServiceActor GridSession) :
    SessionServiceMessage GridSession → SessionServiceReply × SessionServiceActor GridSession
  | .createSession joined =>
    let (result,actor) := actor.handleCreateSession joined
    (.created result,actor)
  | .sendMessage session_id data channel reliability priority accepted =>
    let (result,actor) := actor.handleSendMessage schema session_id data channel reliability priority accepted
    (.sent result,actor)
  | .getNumSessions => (.numSessions actor.activeSessions,actor)
  | .disconnectAll => (.disconnectedAll,actor.handleDisconnectAll)
  | .shutdown => (.stopped,{actor.handleDisconnectAll with running := false})

def dispatchedEvents (schema : NetworkSchema) (session_id : SessionId) (channel : UInt8) (data : Bytes) : List Event :=
  ((dispatchMessages schema session_id channel data).map Dispatched.events).getD []

def receiveMessage (schema : NetworkSchema) (actor : SessionServiceActor GridSession) (session_id : SessionId)
    (channel : UInt8) (data : Bytes) : SessionServiceActor GridSession :=
  let ready := actor.sendReadyIfNeeded session_id
  if ready.listening then
    let received := ready.send (.received session_id channel data)
    match CarrierChannel.fromU8 channel with
    | none => received
    | some channel_kind =>
      if channel_kind.carriesHubMessages then (dispatchedEvents schema session_id channel data).foldl send received
      else received
  else ready

def handleCarrierEvent (schema : NetworkSchema) (actor : SessionServiceActor GridSession) (session_id : SessionId) :
    CarrierEvent → SessionServiceActor GridSession
  | .connected _ => actor.sendReadyIfNeeded session_id
  | .disconnected reason => actor.closeSession session_id (some reason.debug)
  | .error description => actor.send (.error description)
  | .messageReceived channel data =>
    if actor.isLiveSession session_id then actor.receiveMessage schema session_id channel data else actor

end SessionServiceActor

-- What the actor's select loop takes next, or that the last receiver of the
-- events is dropped.
inductive SessionServiceInput (GridSession : Type) where
  | message (msg : SessionServiceMessage GridSession)
  | carrier (session_id : SessionId) (event : CarrierEvent)
  | hangUp

def SessionServiceActor.step (schema : NetworkSchema) (actor : SessionServiceActor GridSession)
    (input : SessionServiceInput GridSession) : SessionServiceActor GridSession :=
  match input with
  | .message msg => if actor.running then (actor.handleMessage schema msg).2 else actor
  | .carrier session_id event => if actor.running then actor.handleCarrierEvent schema session_id event else actor
  | .hangUp => {actor with listening := false}

end NwNetwork.Gridmate
