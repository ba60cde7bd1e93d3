import NwNetwork.SerializeVlq

namespace NwNetwork.Hub
open WireReader Serialize

def maxReplicatedStateBundleBufferSize : Nat := 250 * 1024

-- A zero type index is the mark of a raw UUID on the wire.
inductive FragmentTypeInfo where
  | typeIndex (index : BitVec 32) (nonzero : index ≠ 0)
  | rawUuid (uuid : Uuid)
  deriving DecidableEq

structure StateRecordHeader where
  interestId : BitVec 16
  fragmentCount : Nat
  start : Nat
  headerEnd : Nat
  deriving DecidableEq, Repr

structure StateFragmentHeaderSpan where
  fragmentKey : BitVec 32
  typeInfo : FragmentTypeInfo
  start : Nat
  headerEnd : Nat
  bodyStart : Nat
  deriving DecidableEq

-- The cursor of a buffer of `total` bytes.
def position (total : Nat) : Read Nat := fun bytes => .ok (total - bytes.length,bytes)

def checkInterestId (interest_id : BitVec 32) : Read Unit :=
  if 65535 < interest_id.toNat then Reader.fail (.invalidRange interest_id.toNat 0 65535) else pure ()

def readStateRecordHeader (total : Nat) : Read StateRecordHeader := do
  let start ← position total
  let interest_id ← unmarshalVlqU32
  checkInterestId interest_id
  let fragment_count ← readU8
  let header_end ← position total
  pure ⟨interest_id.setWidth 16,fragment_count.toNat,start,header_end⟩

def fragmentTypeInfoOf (type_index : BitVec 32) : Read FragmentTypeInfo :=
  if zero : type_index = 0 then do
    let uuid ← readUuid
    pure (.rawUuid uuid)
  else pure (.typeIndex type_index zero)

def readFragmentTypeInfo : Read FragmentTypeInfo := do
  let type_index ← unmarshalVlqU32
  fragmentTypeInfoOf type_index

def readStateFragmentHeader (total : Nat) : Read StateFragmentHeaderSpan := do
  let start ← position total
  let fragment_key ← unmarshalVlqU32
  let type_info ← readFragmentTypeInfo
  let header_end ← position total
  pure ⟨fragment_key,type_info,start,header_end,header_end⟩

def writeFragmentTypeInfo : FragmentTypeInfo → Bytes
  | .typeIndex type_index _ => marshalVlqU32 type_index
  | .rawUuid uuid => marshalVlqU32 0 ++ uuid.bytes

-- A visitor is called with both headers and the unread bytes; `σ` is what it keeps
-- between the calls.
def Visitor (σ : Type) := σ → StateRecordHeader → StateFragmentHeaderSpan → Read σ

def visitFragments (total : Nat) (visit : Visitor σ) (record_header : StateRecordHeader) : Nat → σ → Read σ
  | 0,state => pure state
  | count+1,state => do
    let fragment_header ← readStateFragmentHeader total
    let next ← visit state record_header fragment_header
    visitFragments total visit record_header count next

def visitRecord (total : Nat) (visit : Visitor σ) (state : σ) : Read σ := do
  let record_header ← readStateRecordHeader total
  visitFragments total visit record_header record_header.fragmentCount state

def visitBundleBufferFragments (bundle_buffer : Bytes) (visit : Visitor σ) (state : σ) :
    Option (σ × Option MarshalerError) :=
  stepWhileUnread (visitRecord bundle_buffer.length visit) bundle_buffer.length state bundle_buffer

inductive StateFragmentWriteOutcome where
  | written
  | skippedNoPayload
  | skippedOverLimit
  deriving DecidableEq, Repr

structure StateFragment where
  fragmentKey : BitVec 32
  typeInfo : FragmentTypeInfo
  body : Bytes
  deriving DecidableEq

structure StateRecordWriter where
  wb : Bytes
  count : UInt8
  deriving DecidableEq

def saturatingAdd (count amount : UInt8) : UInt8 := UInt8.ofNat (min 255 (count.toNat + amount.toNat))

namespace StateRecordWriter

def reserveFragmentSlot (writer : StateRecordWriter) : Except MarshalerError Unit :=
  if writer.count = 255 then .error (.containerOverflow 256 255) else .ok ()

def keepWithinLimit (writer : StateRecordWriter) (wb : Bytes) :
    Except MarshalerError StateFragmentWriteOutcome × StateRecordWriter :=
  if maxReplicatedStateBundleBufferSize < wb.length then
    (.ok .skippedOverLimit,{writer with wb := wb.take writer.wb.length})
  else (.ok .written,⟨wb,saturatingAdd writer.count 1⟩)

-- What `marshal_contents_with` appends and returns is given by `contents` and
-- `wrote_payload`.
def writeFragmentWithContext (writer : StateRecordWriter) (fragment_key : BitVec 32) (type_info : FragmentTypeInfo)
    (wrote_payload : Bool) (contents : Bytes) : Except MarshalerError StateFragmentWriteOutcome × StateRecordWriter :=
  match writer.reserveFragmentSlot with
  | .error error => (.error error,writer)
  | .ok () =>
    let wb := writer.wb ++ marshalVlqU32 fragment_key ++ writeFragmentTypeInfo type_info ++ contents
    if wrote_payload then writer.keepWithinLimit wb
    else (.ok .skippedNoPayload,{writer with wb := wb.take writer.wb.length})

def writeRawFragment (writer : StateRecordWriter) (fragment_key : BitVec 32) (type_info : FragmentTypeInfo)
    (body : Bytes) : Except MarshalerError StateFragmentWriteOutcome × StateRecordWriter :=
  match writer.reserveFragmentSlot with
  | .error error => (.error error,writer)
  | .ok () =>
    let wb := writer.wb ++ marshalVlqU32 fragment_key ++ writeFragmentTypeInfo type_info ++ body
    writer.keepWithinLimit wb

end StateRecordWriter

inductive FragmentCall where
  | fragment (fragment_key : BitVec 32) (type_info : FragmentTypeInfo) (wrote_payload : Bool) (contents : Bytes)
  | raw (fragment_key : BitVec 32) (type_info : FragmentTypeInfo) (body : Bytes)
  deriving DecidableEq

namespace FragmentCall

def perform (writer : StateRecordWriter) : FragmentCall →
    Except MarshalerError StateFragmentWriteOutcome × StateRecordWriter
  | .fragment fragment_key type_info wrote_payload contents =>
    writer.writeFragmentWithContext fragment_key type_info wrote_payload contents
  | .raw fragment_key type_info body => writer.writeRawFragment fragment_key type_info body

def stateFragment : FragmentCall → StateFragment
  | .fragment fragment_key type_info _ contents => ⟨fragment_key,type_info,contents⟩
  | .raw fragment_key type_info body => ⟨fragment_key,type_info,body⟩

end FragmentCall

-- The closure that writes a record: every call may depend on what the calls
-- before it returned, and the result on all of them.
inductive RecordProgram (α : Type) where
  | done (result : Except MarshalerError α)
  | call (fragment : FragmentCall) (next : Except MarshalerError StateFragmentWriteOutcome → RecordProgram α)

abbrev CallLog := List (FragmentCall × Except MarshalerError StateFragmentWriteOutcome)

structure RecordRun (α : Type) where
  result : Except MarshalerError α
  writer : StateRecordWriter
  log : CallLog

def RecordProgram.run (writer : StateRecordWriter) : RecordProgram α → RecordRun α
  | .done result => ⟨result,writer,[]⟩
  | .call fragment next =>
    let returned := fragment.perform writer
    let rest := run returned.2 (next returned.1)
    ⟨rest.result,rest.writer,(fragment,returned.1) :: rest.log⟩

def writtenFragment (call : FragmentCall × Except MarshalerError StateFragmentWriteOutcome) : Option StateFragment :=
  if call.2 = .ok .written then some call.1.stateFragment else none

def reportedWritten (log : CallLog) : List StateFragment := log.filterMap writtenFragment

structure RecordCall (α : Type) where
  interestId : BitVec 16
  program : RecordProgram α

structure RecordWritten (α : Type) where
  result : Except MarshalerError α
  wb : Bytes
  log : CallLog

-- The count is patched into the byte in front of the fragments.
def writeStateRecord (wb : Bytes) (call : RecordCall α) : RecordWritten α :=
  let started := wb ++ marshalVlqU32 (call.interestId.setWidth 32)
  let body := call.program.run ⟨started ++ [0],0⟩
  let patched := body.writer.wb.set started.length body.writer.count
  if body.result.toOption.isNone ∨ body.writer.count = 0 then ⟨body.result,patched.take wb.length,body.log⟩
  else ⟨body.result,patched,body.log⟩

-- The other fields of the bundle take no part in writing and visiting records.
structure ReplicatedStateBundle where
  bundleBuffer : Bytes
  deriving DecidableEq

namespace ReplicatedStateBundle

def writeRecord (bundle : ReplicatedStateBundle) (call : RecordCall α) : RecordWritten α × ReplicatedStateBundle :=
  let written := writeStateRecord bundle.bundleBuffer call
  (written,⟨written.wb⟩)

def visitFragments (bundle : ReplicatedStateBundle) (visit : Visitor σ) (state : σ) : Option (σ × Option MarshalerError) :=
  visitBundleBufferFragments bundle.bundleBuffer visit state

def writeRecords (bundle : ReplicatedStateBundle) : List (RecordCall α) → List (RecordWritten α) × ReplicatedStateBundle
  | [] => ([],bundle)
  | call :: calls =>
    let first := bundle.writeRecord call
    let others := writeRecords first.2 calls
    (first.1 :: others.1,others.2)

end ReplicatedStateBundle
end NwNetwork.Hub
