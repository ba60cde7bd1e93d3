import NwNetwork.SerializeBuffer

namespace NwNetwork.Carrier
open WireReader Serialize

-- Wrapping 16-bit numbers of datagrams and messages.
abbrev SequenceNumber := BitVec 16

def sequenceNumberMax : SequenceNumber := BitVec.ofNat 16 0xffff
def maxChannels : Nat := 4
def systemChannel : UInt8 := 3
def priorityMax : Nat := 4

def sequenceNumberSequentialDistance (start finish : SequenceNumber) : Nat := (finish - start).toNat

theorem distance_one_iff (last next : SequenceNumber) :
    sequenceNumberSequentialDistance last next = 1 ↔ next = last + 1 := by
  unfold sequenceNumberSequentialDistance
  constructor
  · intro one
    have difference : next - last = 1 := BitVec.eq_of_toNat_eq one
    rw [←difference,BitVec.add_comm,BitVec.sub_add_cancel]
  · rintro rfl
    rw [BitVec.add_comm,BitVec.add_sub_cancel]
    rfl

theorem distance_zero_iff (last next : SequenceNumber) :
    sequenceNumberSequentialDistance last next = 0 ↔ next = last := by
  unfold sequenceNumberSequentialDistance
  constructor
  · intro zero
    apply BitVec.eq_of_toNat_eq
    simp only [BitVec.toNat_sub] at zero
    omega
  · rintro rfl
    simp

-- Wrapping-aware less-than: the forward distance lies within the half-span.
def seqLessThan (a b : SequenceNumber) : Bool :=
  let diff := (b - a).toNat
  a != b && decide (0 < diff) && decide (diff < 0x8000)

inductive DataReliability where
  | unreliable
  | reliable
  deriving DecidableEq, Repr

namespace MessageFlags
def reliable : UInt8 := (1 : UInt8) <<< 0
def chunks : UInt8 := (1 : UInt8) <<< 2
def sequentialId : UInt8 := (1 : UInt8) <<< 3
def sequentialRelId : UInt8 := (1 : UInt8) <<< 4
def dataChannel : UInt8 := (1 : UInt8) <<< 5
def connecting : UInt8 := (1 : UInt8) <<< 7
end MessageFlags

-- Without the acknowledgement callback and the debug spans, which no modelled
-- function reads.
structure MessageData where
  reliability : DataReliability
  channel : UInt8
  numChunks : SequenceNumber
  sequenceNumber : SequenceNumber
  sendReliableSeqNum : SequenceNumber
  data : Bytes
  isConnecting : Bool
  deriving DecidableEq, Repr

def MessageData.new : MessageData where
  reliability := .unreliable
  channel := 0
  numChunks := 1
  sequenceNumber := 0
  sendReliableSeqNum := sequenceNumberMax
  data := []
  isConnecting := false

-- An array with one entry a channel. An index past the last channel panics in
-- the source; the functions below test it where they index.
abbrev PerChannel (α : Type) := UInt8 → α

def PerChannel.set (array : PerChannel α) (channel : UInt8) (value : α) : PerChannel α :=
  fun other => if other = channel then value else array other

@[simp] theorem PerChannel.set_same (array : PerChannel α) (channel : UInt8) (value : α) :
    array.set channel value channel = value := by simp [PerChannel.set]

@[simp] theorem PerChannel.set_other (array : PerChannel α) (value : α) (ne : other ≠ channel) :
    array.set channel value other = array other := by simp [PerChannel.set,ne]

-- What the frame walk carries from one frame to the next within a datagram.
structure WalkContext where
  prevMsgSeqNum : PerChannel SequenceNumber
  prevReliableMsgSeqNum : PerChannel SequenceNumber
  currentChannel : UInt8

def WalkContext.start : WalkContext := ⟨fun _ => 0,fun _ => 0,0⟩

def unusedFlags : UInt8 := ((1 : UInt8) <<< 1) ||| ((1 : UInt8) <<< 6)

-- One frame. Every failure of the buffer becomes `none`, as in the source.
def readHeader (context : WalkContext) (buffer : Bytes) :
    Option (MessageData × WalkContext × Bytes) := do
  let (flags,buffer) ← (readU8 buffer).toOption
  if flags &&& unusedFlags ≠ 0 then none else
  let (dataSize,buffer) ← (readU16 buffer).toOption
  let reliability : DataReliability :=
    if flags &&& MessageFlags.reliable ≠ 0 then .reliable else .unreliable
  let (currentChannel,buffer) ← (
    if flags &&& MessageFlags.dataChannel ≠ 0 then (readU8 buffer).toOption
    else some (context.currentChannel,buffer))
  if maxChannels ≤ currentChannel.toNat then none else
  let (numChunks,buffer) ← (
    if flags &&& MessageFlags.chunks ≠ 0 then (readU16 buffer).toOption
    else some (1,buffer))
  let (sequenceNumber,buffer) ← (
    if flags &&& MessageFlags.sequentialId ≠ 0 then
      some (context.prevMsgSeqNum currentChannel + 1,buffer)
    else (readU16 buffer).toOption)
  let (sendReliableSeqNum,buffer) ← (
    if flags &&& MessageFlags.sequentialRelId ≠ 0 then
      if flags &&& MessageFlags.reliable ≠ 0 then
        some (context.prevReliableMsgSeqNum currentChannel + 1,buffer)
      else some (context.prevReliableMsgSeqNum currentChannel,buffer)
    else (readU16 buffer).toOption)
  let isConnecting := flags &&& MessageFlags.connecting != 0
  let (payload,buffer) ← (readBytes dataSize.toNat buffer).toOption
  some (⟨reliability,currentChannel,numChunks,sequenceNumber,sendReliableSeqNum,payload,isConnecting⟩,
    ⟨context.prevMsgSeqNum.set currentChannel sequenceNumber,
      context.prevReliableMsgSeqNum.set currentChannel sendReliableSeqNum,currentChannel⟩,buffer)

-- Which fields of a header are written and which the reader has to infer.
structure HeaderForm where
  isWriteSeqNumber : Bool
  isWriteReliableSeqNum : Bool
  isWriteChannel : Bool
  deriving DecidableEq, Repr

def headerFlags (msg : MessageData) (form : HeaderForm) : UInt8 :=
  (if msg.reliability = .reliable then MessageFlags.reliable else 0) |||
  (if 1 < msg.numChunks.toNat then MessageFlags.chunks else 0) |||
  (if form.isWriteSeqNumber then 0 else MessageFlags.sequentialId) |||
  (if form.isWriteReliableSeqNum then 0 else MessageFlags.sequentialRelId) |||
  (if form.isWriteChannel then MessageFlags.dataChannel else 0) |||
  (if msg.isConnecting then MessageFlags.connecting else 0)

-- `data.len() as u16` keeps the low sixteen bits of a longer length.
def writeMessageHeader (msg : MessageData) (form : HeaderForm) : Bytes :=
  writeU8 (headerFlags msg form) ++ writeU16 (BitVec.ofNat 16 msg.data.length) ++
  (if form.isWriteChannel then writeU8 msg.channel else []) ++
  (if 1 < msg.numChunks.toNat then writeU16 msg.numChunks else []) ++
  (if form.isWriteSeqNumber then writeU16 msg.sequenceNumber else []) ++
  (if form.isWriteReliableSeqNum then writeU16 msg.sendReliableSeqNum else [])

namespace HeaderSizes
def flags : Nat := 1
def dataSize : Nat := 2
def channelInfo : Nat := 1
def splitPacketInfo : Nat := 2
def sequenceNumber : Nat := 2
def sequenceReliableNumber : Nat := 2
end HeaderSizes

def messageHeaderSize (msg : MessageData) (form : HeaderForm) : Nat :=
  HeaderSizes.flags + HeaderSizes.dataSize +
  (if form.isWriteChannel then HeaderSizes.channelInfo else 0) +
  (if 1 < msg.numChunks.toNat then HeaderSizes.splitPacketInfo else 0) +
  (if form.isWriteSeqNumber then HeaderSizes.sequenceNumber else 0) +
  (if form.isWriteReliableSeqNum then HeaderSizes.sequenceReliableNumber else 0)

theorem messageHeaderSize_exact (msg : MessageData) (form : HeaderForm) :
    (writeMessageHeader msg form).length = messageHeaderSize msg form := by
  simp only [writeMessageHeader,messageHeaderSize,writeU8,HeaderSizes.flags,HeaderSizes.dataSize,
    HeaderSizes.channelInfo,HeaderSizes.splitPacketInfo,HeaderSizes.sequenceNumber,
    HeaderSizes.sequenceReliableNumber,List.length_append]
  repeat' split
  all_goals simp

end NwNetwork.Carrier
