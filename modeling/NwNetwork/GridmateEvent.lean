import NwNetwork.CarrierMessage

namespace NwNetwork.Gridmate
open WireReader Carrier

abbrev SessionId := Nat

inductive DisconnectReason where
  | userRequested
  | badConnection
  | badPackets
  | driverError
  | handshakeRejected
  | handshakeTimeout
  | wasAlreadyConnected
  | shuttingDown
  | debugDeleteConnection
  | versionMismatch
  deriving DecidableEq, Repr

-- What the source's debug format prints.
def DisconnectReason.debug : DisconnectReason → String
  | .userRequested => "UserRequested"
  | .badConnection => "BadConnection"
  | .badPackets => "BadPackets"
  | .driverError => "DriverError"
  | .handshakeRejected => "HandshakeRejected"
  | .handshakeTimeout => "HandshakeTimeout"
  | .wasAlreadyConnected => "WasAlreadyConnected"
  | .shuttingDown => "ShuttingDown"
  | .debugDeleteConnection => "DebugDeleteConnection"
  | .versionMismatch => "VersionMismatch"

inductive CarrierEvent where
  | connected (version : BitVec 32)
  | disconnected (reason : DisconnectReason)
  | messageReceived (channel : UInt8) (data : Bytes)
  | error (description : String)
  deriving DecidableEq

-- What both the client's session service and the server's listener tell the
-- application.
inductive Event where
  | received (session : SessionId) (channel : UInt8) (data : Bytes)
  | typedReceived (session : SessionId) (channel : UInt8) (type_index : BitVec 32) (data : Bytes)
  | sent (session : SessionId) (data : Bytes) (channel : UInt8) (reliability : DataReliability) (priority : Nat)
      (type_index : Option (BitVec 32))
  | ready (session : SessionId)
  | disconnected (session : SessionId) (reason : String)
  | error (description : String)
  deriving DecidableEq

def Event.disconnects (session_id : SessionId) : Event → Bool
  | .disconnected session _ => session == session_id
  | _ => false

def systemChannel : UInt8 := 3
def maxChannels : Nat := 4

inductive CarrierChannel where
  | gameData
  | replicatedStateBundle
  | application2
  | system
  deriving DecidableEq, Repr

def CarrierChannel.fromU8 (channel : UInt8) : Option CarrierChannel :=
  if channel = 0 then some .gameData
  else if channel = 1 then some .replicatedStateBundle
  else if channel = 2 then some .application2
  else if channel = systemChannel then some .system
  else none

def CarrierChannel.carriesHubMessages : CarrierChannel → Bool
  | .gameData | .replicatedStateBundle => true
  | .application2 | .system => false

end NwNetwork.Gridmate
