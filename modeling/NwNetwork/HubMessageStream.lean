import NwNetwork.HubMessage
import NwNetwork.StreamLoop
import NwNetwork.GridmateEvent

namespace NwNetwork.Gridmate
open WireReader Serialize

structure HubEnvelopeSummary where
  typeIndex : Option (BitVec 32)
  name : String
  body : Bytes
  bodyLen : Nat
  deriving DecidableEq

def summarizeEnvelope (schema : NetworkSchema) (envelope : MessageEnvelopeView) : HubEnvelopeSummary :=
  let type_index := envelope.typeId.resolvedTypeIndex schema
  let name := (type_index.bind schema.nameForTypeIndex).getD "<unknown-message>"
  ⟨type_index,name,envelope.body,envelope.body.length⟩

structure ParsedHubStream where
  path : HubWirePath
  envelopes : List HubEnvelopeSummary
  emptyEnvelopes : Nat
  deriving DecidableEq

-- The texts of the source's errors are given by what stands in them.
inductive HubParseError where
  | parse (path : HubWirePath) (before total : Nat) (error : MarshalerError)
  | didNotAdvance (path : HubWirePath) (before total : Nat)
  | noEnvelopes (path : HubWirePath)
  deriving DecidableEq

-- The correlation id stands for the metadata, which no loop keeps.
def readMessage : HubWirePath → Read (Except MarshalerError (Option Uuid × MessageEnvelopeView))
  | .sizedServerToClient => do
    let parsed ← readSizedMessage
    pure (parsed.map fun message => (none,message.2))
  | .correlatedClientToServer => do
    let parsed ← readCorrelatedMessage
    pure (parsed.map fun message => (some message.1.correlationId,message.2))

def parseEnvelope (schema : NetworkSchema) (path : HubWirePath) (before total : Nat)
    (parsed : List HubEnvelopeSummary × Nat) :
    Except MarshalerError (Option Uuid × MessageEnvelopeView) → Except HubParseError (List HubEnvelopeSummary × Nat)
  | .ok (_,envelope) => .ok (parsed.1 ++ [summarizeEnvelope schema envelope],parsed.2)
  | .error .emptyEnvelope => .ok (parsed.1,parsed.2 + 1)
  | .error error => .error (.parse path before total error)

def parseHubStep (schema : NetworkSchema) (path : HubWirePath) (total : Nat) (parsed : List HubEnvelopeSummary × Nat) :
    Reader HubParseError (List HubEnvelopeSummary × Nat) := fun bytes =>
  let before := total - bytes.length
  match readMessage path bytes with
  | .error error => .error (.parse path before total error)
  | .ok (message,rest) =>
    match parseEnvelope schema path before total parsed message with
    | .error error => .error error
    | .ok next => if bytes.length ≤ rest.length then .error (.didNotAdvance path before total) else .ok (next,rest)

def finishHubStream (path : HubWirePath) : (List HubEnvelopeSummary × Nat) × Option HubParseError →
    Except HubParseError ParsedHubStream
  | (_,some error) => .error error
  | ((envelopes,empty_envelopes),none) =>
    if envelopes = [] ∧ empty_envelopes = 0 then .error (.noEnvelopes path) else .ok ⟨path,envelopes,empty_envelopes⟩

-- `none` is a loop that does not end within as many rounds as there are bytes.
def parseHubStream (schema : NetworkSchema) (data : Bytes) (path : HubWirePath) :
    Option (Except HubParseError ParsedHubStream) :=
  (stepWhileUnread (parseHubStep schema path data.length) data.length ([],0) data).map (finishHubStream path)

def eventFromMessageEnvelope (schema : NetworkSchema) (session : SessionId) (channel : UInt8)
    (envelope : MessageEnvelopeView) : Option Event :=
  (envelope.typeId.resolvedTypeIndex schema).map fun type_index =>
    .typedReceived session channel type_index envelope.body

-- What the session service's loop has read, with the events made of it.
structure Dispatched where
  views : List MessageEnvelopeView
  events : List Event
  deriving DecidableEq

def dispatchEnvelope (schema : NetworkSchema) (session : SessionId) (channel : UInt8) (dispatched : Dispatched) :
    Except MarshalerError (SizedEnvelopeMetadata × MessageEnvelopeView) → Read Dispatched
  | .ok (_,view) =>
    pure ⟨dispatched.views ++ [view],dispatched.events ++ (eventFromMessageEnvelope schema session channel view).toList⟩
  | .error .emptyEnvelope => pure dispatched
  | .error error => Reader.fail error

def dispatchStep (schema : NetworkSchema) (session : SessionId) (channel : UInt8) (dispatched : Dispatched) :
    Read Dispatched := do
  let parsed ← readSizedMessage
  dispatchEnvelope schema session channel dispatched parsed

-- A stream item that cannot be read breaks the loop and keeps what was dispatched.
def dispatchMessages (schema : NetworkSchema) (session : SessionId) (channel : UInt8) (data : Bytes) :
    Option Dispatched :=
  (stepWhileUnread (dispatchStep schema session channel) data.length ⟨[],[]⟩ data).map Prod.fst

structure SentMessage where
  correlationId : Uuid
  message : HubMessage

def marshalFramed (sent : SentMessage) : HubWirePath → Bytes
  | .sizedServerToClient => marshalSizedInto sent.message
  | .correlatedClientToServer => marshalCorrelatedInto sent.correlationId sent.message

structure ReceivedMessage where
  correlationId : Option Uuid
  typeId : MessageTypeId
  body : Bytes
  deriving DecidableEq

def SentMessage.received (sent : SentMessage) (path : HubWirePath) : ReceivedMessage :=
  ⟨if path = .correlatedClientToServer then some sent.correlationId else none,
    .typeIndex sent.message.typeIndex,sent.message.body⟩

def collectEnvelope (received : List ReceivedMessage) :
    Except MarshalerError (Option Uuid × MessageEnvelopeView) → Read (List ReceivedMessage)
  | .ok (correlation_id,view) => pure (received ++ [⟨correlation_id,view.typeId,view.body⟩])
  | .error .emptyEnvelope => pure received
  | .error error => Reader.fail error

def collectStep (path : HubWirePath) (received : List ReceivedMessage) : Read (List ReceivedMessage) := do
  let parsed ← readMessage path
  collectEnvelope received parsed

-- Parses a whole stream, skipping the empty envelopes as both loops do.
def readMessages (path : HubWirePath) (data : Bytes) : Option (List ReceivedMessage × Option MarshalerError) :=
  stepWhileUnread (collectStep path) data.length [] data

end NwNetwork.Gridmate
