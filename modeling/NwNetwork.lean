import NwNetwork.CarrierReliableDelivery
import NwNetwork.CarrierLossless
import NwNetwork.CarrierConservation
import NwNetwork.CarrierAckSafety
import NwNetwork.CarrierDuplicates
import NwNetwork.HubSequenceNumber
import NwNetwork.ReplicatedField
import NwNetwork.ReplicatedContents
import NwNetwork.ReplicatedContentsRoundTrip
import NwNetwork.ReplicatedConvergence
import NwNetwork.MaskedSlots
import NwNetwork.HubDerivedFragment
import NwNetwork.HubDerivedContents
import NwNetwork.HubFixedState
import NwNetwork.HubFilterNoninterference
import NwNetwork.HubFixedContents
import NwNetwork.HubFilterAttributes
import NwNetwork.HubDefaultBits
import NwNetwork.HubFullFragment
import NwNetwork.HubMessage
import NwNetwork.StreamLoop
import NwNetwork.GridmateEvent
import NwNetwork.HubMessageStream
import NwNetwork.HubFraming
import NwNetwork.ServerInbound
import NwNetwork.HubStateRecord
import NwNetwork.HubBundleRecords
import NwNetwork.SessionLifecycle
import NwNetwork.ServerPeers
import NwNetwork.ServerRegistry
import NwNetwork.ContainerStorage
import NwNetwork.ContainerReplay
import NwNetwork.LiveMask
import NwNetwork.ReplicatedContainer
import NwNetwork.ContainerWire
import NwNetwork.ContainerHistory
import NwNetwork.ContainerDelta
import NwNetwork.ContainerAcceptance
import NwNetwork.ContainerBaselines
import NwNetwork.VlqMarshaler
import NwNetwork.HubBundleMessage
import NwNetwork.CarrierHistoryRepresentation
import NwNetwork.CarrierAckCompleteness
import NwNetwork.CarrierUnreliableGate
import NwNetwork.CarrierIncoming
import NwNetwork.CarrierResendOrder
import NwNetwork.CarrierOutgoingBounds
import NwNetwork.CarrierWholeDatagram
import NwNetwork.ReplicatedFieldPolicy
import NwNetwork.HubPayloadRuns
import NwNetwork.ContainerRedelivery
import NwNetwork.HubWhitelist
import NwNetwork.HubHeaderRoundTrip
import NwNetwork.HubReplicationControl
import NwNetwork.RecordStream
import NwNetwork.HubFragmentReaders
import NwNetwork.GridmateReplay
import NwNetwork.DriverRecvRing
import NwNetwork.MaskChain
import NwNetwork.ReplicatedDeltaCounter
import NwNetwork.ReplicatedFloatTimer
import NwNetwork.CodecCombinators
import NwNetwork.CarrierDriver
import NwNetwork.CarrierDriverMoves
import NwNetwork.CarrierStored
import NwNetwork.CarrierUnchanged
import NwNetwork.CarrierDriverDiscipline
import NwNetwork.CarrierDriverStored
import NwNetwork.CarrierArrivals
import NwNetwork.CarrierLink
import NwNetwork.CarrierHandshake
import NwNetwork.CarrierLinkDelivery
import NwNetwork.MultiPeerListener
import NwNetwork.MultiPeerOwnership
import NwNetwork.MultiPeerEvents
import NwNetwork.MultiPeerLifetime
import NwNetwork.MultiPeerRouting
import NwNetwork.MultiPeerProgress
import NwNetwork.SecureConnection
import NwNetwork.SecureHandshake
import NwNetwork.SecureHandshakeRetries
