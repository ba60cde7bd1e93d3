import NwNetwork.SerializeVlq

namespace NwNetwork.Gridmate
open WireReader Serialize

def crc32Shift (crc : BitVec 32) : BitVec 32 :=
  if crc &&& 1 ≠ 0 then 0xEDB88320 ^^^ (crc >>> 1) else crc >>> 1

def crc32Byte (crc : BitVec 32) (byte : UInt8) : BitVec 32 :=
  Nat.repeat crc32Shift 8 (crc ^^^ byte.toBitVec.setWidth 32)

def crc32Chunks (chunks : List Bytes) : BitVec 32 :=
  chunks.foldl (fun crc chunk => chunk.foldl crc32Byte crc) 0xFFFFFFFF ^^^ 0xFFFFFFFF

inductive MessageTypeId where
  | typeIndex (type_index : BitVec 32)
  | uuid (type_id : Uuid)
  deriving DecidableEq

-- The network schema is generated: the two lookups in it are parameters.
structure NetworkSchema where
  typeByTypeId : Uuid → Option (BitVec 32)
  nameForTypeIndex : BitVec 32 → Option String

def MessageTypeId.resolvedTypeIndex (schema : NetworkSchema) : MessageTypeId → Option (BitVec 32)
  | .typeIndex type_index => some type_index
  | .uuid type_id => schema.typeByTypeId type_id

structure MessageEnvelopeView where
  raw : Bytes
  outerFlags : UInt8
  field1 : Option Bytes
  field2 : Option Bytes
  envelopeFlags : UInt8
  typeId : MessageTypeId
  body : Bytes
  deriving DecidableEq

structure CorrelatedMetadata where
  checksum : BitVec 32
  payloadSize : BitVec 32
  correlationId : Uuid
  deriving DecidableEq

structure SizedEnvelopeMetadata where
  envelopeSize : BitVec 32
  deriving DecidableEq

def readFixed8 (present : Bool) : Read (Option Bytes) :=
  if present then do
    let bytes ← readBytes 8
    pure (some bytes)
  else pure none

def checkEnvelopeFlags (envelope_flags : UInt8) : Read Unit :=
  if envelope_flags = 0 then Reader.fail .emptyEnvelope
  else if 2 ≤ envelope_flags then Reader.fail (.invalidEnvelopeFlags envelope_flags)
  else pure ()

def readTypeId (vlq_value : BitVec 32) : Read MessageTypeId :=
  if vlq_value = 0 then do
    let uuid ← readUuid
    pure (.uuid uuid)
  else pure (.typeIndex vlq_value)

def readRemaining : Read Bytes := fun bytes => .ok (bytes,[])

def readEnvelope (raw : Bytes) : Read MessageEnvelopeView := do
  let outer_flags ← readU8
  let field1 ← readFixed8 (outer_flags &&& 0x01 != 0)
  let field2 ← readFixed8 (outer_flags &&& 0x02 != 0)
  let envelope_flags ← readU8
  checkEnvelopeFlags envelope_flags
  let vlq_value ← unmarshalVlqU32
  let type_id ← readTypeId vlq_value
  let body ← readRemaining
  pure ⟨raw,outer_flags,field1,field2,envelope_flags,type_id,body⟩

-- A failure inside the envelope leaves the cursor behind it: it is a result here,
-- with the bytes that follow. Where the framing itself fails no caller reads on.
def readMessageEnvelope (envelope_len : Nat) : Read (Except MarshalerError MessageEnvelopeView) := do
  let envelope_bytes ← readBytes envelope_len
  pure ((readEnvelope envelope_bytes envelope_bytes).map Prod.fst)

def checkedSub (payload_size : BitVec 32) : Read Nat :=
  if payload_size.toNat < 16 then Reader.fail (.truncatedPayload 16 payload_size.toNat)
  else pure (payload_size.toNat - 16)

def checkLeft (envelope_size : Nat) : Read Unit := fun bytes =>
  if bytes.length < envelope_size then .error (.truncatedPayload envelope_size bytes.length)
  else .ok ((),bytes)

def checkCrc (checksum : BitVec 32) (correlation_id : Uuid) (envelope_size : Nat) : Read Unit := fun bytes =>
  let actual_crc := crc32Chunks [correlation_id.bytes,bytes.take envelope_size]
  if actual_crc = checksum then .ok ((),bytes) else .error (.crcMismatch checksum actual_crc)

def readCorrelatedMessage : Read (Except MarshalerError (CorrelatedMetadata × MessageEnvelopeView)) := do
  let checksum ← readU32
  let payload_size ← readU32
  let correlation_id ← readUuid
  let envelope_size ← checkedSub payload_size
  checkLeft envelope_size
  checkCrc checksum correlation_id envelope_size
  let view ← readMessageEnvelope envelope_size
  pure (view.map fun view => (⟨checksum,payload_size,correlation_id⟩,view))

def checkEnvelopeSize (envelope_size : Nat) : Read Unit := fun bytes =>
  if envelope_size = 0 ∨ bytes.length < envelope_size then .error (.truncatedPayload envelope_size bytes.length)
  else .ok ((),bytes)

def readSizedMessage : Read (Except MarshalerError (SizedEnvelopeMetadata × MessageEnvelopeView)) := do
  let envelope_size ← unmarshalVlqU32
  checkEnvelopeSize envelope_size.toNat
  let view ← readMessageEnvelope envelope_size.toNat
  pure (view.map fun view => (⟨envelope_size⟩,view))

-- A message of a registered type: the registry gives no type the index zero.
structure HubMessage where
  typeIndex : BitVec 32
  registered : typeIndex ≠ 0
  body : Bytes

def HubMessage.marshalEnvelope (message : HubMessage) : Bytes :=
  writeU8 0 ++ writeU8 1 ++ marshalVlqU32 message.typeIndex ++ message.body

-- The lengths are cut to 32 bits.
def marshalCorrelatedInto (correlation_id : Uuid) (message : HubMessage) : Bytes :=
  let envelope_bytes := message.marshalEnvelope
  let payload_size := BitVec.ofNat 32 (16 + envelope_bytes.length)
  let checksum := crc32Chunks [correlation_id.bytes,envelope_bytes]
  writeU32 checksum ++ writeU32 payload_size ++ correlation_id.bytes ++ envelope_bytes

def marshalSizedInto (message : HubMessage) : Bytes :=
  let envelope_bytes := message.marshalEnvelope
  marshalVlqU32 (BitVec.ofNat 32 envelope_bytes.length) ++ envelope_bytes

inductive HubWirePath where
  | sizedServerToClient
  | correlatedClientToServer
  deriving DecidableEq, Repr

end NwNetwork.Gridmate
