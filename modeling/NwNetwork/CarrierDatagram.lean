import NwNetwork.CarrierMessage

namespace NwNetwork.Carrier
open WireReader Serialize

namespace Mtu
def maxUdpPacketSize : Nat := 1200
def udpIpOverhead : Nat := 28
def dtlsHeaderSize : Nat := 13
def dtlsCipherOverhead : Nat := 30
def maxDatagramSize : Nat := maxUdpPacketSize - udpIpOverhead - dtlsHeaderSize - dtlsCipherOverhead
def maxMessageHeaderSize : Nat := HeaderSizes.flags + HeaderSizes.dataSize + HeaderSizes.channelInfo +
  HeaderSizes.splitPacketInfo + HeaderSizes.sequenceNumber + HeaderSizes.sequenceReliableNumber
end Mtu

structure DatagramHeader where
  isCompressed : Bool
  hasCompressor : Bool
  sequenceNumber : SequenceNumber
  deriving DecidableEq, Repr

namespace DatagramHeader

def size : Nat := 4
def uncompressed : UInt8 := 0x80
def compressed : UInt8 := 0x81
def hasCompressorMark : UInt8 := 0x01

def unmarshal : Read DatagramHeader := do
  let firstByte ← readU8
  if firstByte ≠ 0x80 ∧ firstByte ≠ 0x81 then Reader.fail (.invalidDiscriminant firstByte) else
  let compressor ← readU8
  let sequenceNumber ← readU16
  pure ⟨firstByte &&& 0x01 != 0,compressor == 0x01,sequenceNumber⟩

end DatagramHeader

namespace Mtu
def maxMessageDataSize : Nat := maxDatagramSize - DatagramHeader.size - maxMessageHeaderSize
def sequenceNumberHalfSpan : Nat := 32768
def maxNumChunks : Nat := sequenceNumberHalfSpan - 1

def chunksNeeded (dataSize : Nat) : Nat :=
  if dataSize ≤ maxMessageDataSize then 1 else 1 + (dataSize - 1) / maxMessageDataSize
end Mtu

-- The block compressor of another package. A decompression gives at most as many
-- bytes as it is asked for.
structure Lz4 where
  compress : Bytes → Bytes
  decompressPartial : Bytes → Nat → Option Bytes

inductive DecodeError where
  | header (source : MarshalerError)
  | decompress (payloadLen : Nat)
  | frameParseStop (payloadLen leftover : Nat)
  deriving DecidableEq, Repr

structure DecodedDatagram where
  header : DatagramHeader
  payload : Bytes
  frames : List MessageData
  deriving DecidableEq, Repr

def maxDecompressedBytes : Nat := 65536

-- A frame takes at least three bytes, so there are fewer frames than bytes. A
-- frame that does not parse ends the walk without an error.
def walkFrom : Nat → WalkContext → Bytes → List MessageData
  | 0,_,_ => []
  | fuel+1,context,buffer =>
    if buffer.isEmpty then [] else
    match readHeader context buffer with
    | none => []
    | some (msg,context,buffer) => msg :: walkFrom fuel context buffer

def walkFrames (payload : Bytes) : List MessageData := walkFrom payload.length WalkContext.start payload

def decodeDatagram (lz4 : Lz4) (data : Bytes) : Except DecodeError DecodedDatagram :=
  match DatagramHeader.unmarshal data with
  | .error source => .error (.header source)
  | .ok (header,rest) =>
    if header.isCompressed then
      match lz4.decompressPartial rest maxDecompressedBytes with
      | none => .error (.decompress rest.length)
      | some payload => .ok ⟨header,payload,walkFrames payload⟩
    else .ok ⟨header,rest,walkFrames rest⟩

theorem unmarshal_written
    (known : firstByte = DatagramHeader.uncompressed ∨ firstByte = DatagramHeader.compressed)
    (seq : SequenceNumber) (payload : Bytes) :
    DatagramHeader.unmarshal (firstByte :: DatagramHeader.hasCompressorMark :: writeU16 seq ++ payload) =
      .ok (⟨firstByte &&& 0x01 != 0,true,seq⟩,payload) := by
  have accepted : ¬(firstByte ≠ 0x80 ∧ firstByte ≠ 0x81) := by
    rintro ⟨plain,packed⟩
    exact known.elim plain packed
  unfold DatagramHeader.unmarshal
  rw [List.cons_append,List.cons_append,Reader.bind_ok (readU8_cons _ _),if_neg accepted,
    Reader.bind_ok (readU8_cons _ _),Reader.bind_ok (readU16_writeU16 _ _)]
  rfl

end NwNetwork.Carrier
