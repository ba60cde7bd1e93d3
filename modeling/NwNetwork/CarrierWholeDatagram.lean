import NwNetwork.CarrierIncoming

namespace NwNetwork.Carrier
open WireReader Serialize

-- A frame as the bytes of a datagram hold it. The flags say which of the other
-- fields are on the wire; the reader infers those that are not.
structure FrameWire where
  flags : UInt8
  channel : UInt8
  numChunks : SequenceNumber
  sequenceNumber : SequenceNumber
  sendReliableSeqNum : SequenceNumber
  payload : Bytes
  deriving DecidableEq, Repr

namespace FrameWire

abbrev Has (wire : FrameWire) (flag : UInt8) : Prop := wire.flags &&& flag ≠ 0

def bytes (wire : FrameWire) : Bytes :=
  writeU8 wire.flags ++ writeU16 (BitVec.ofNat 16 wire.payload.length) ++
  (if wire.Has MessageFlags.dataChannel then writeU8 wire.channel else []) ++
  (if wire.Has MessageFlags.chunks then writeU16 wire.numChunks else []) ++
  (if wire.Has MessageFlags.sequentialId then [] else writeU16 wire.sequenceNumber) ++
  (if wire.Has MessageFlags.sequentialRelId then [] else writeU16 wire.sendReliableSeqNum) ++
  wire.payload

def channelIn (wire : FrameWire) (context : WalkContext) : UInt8 :=
  if wire.Has MessageFlags.dataChannel then wire.channel else context.currentChannel

def message (wire : FrameWire) (context : WalkContext) : MessageData where
  reliability := if wire.Has MessageFlags.reliable then .reliable else .unreliable
  channel := wire.channelIn context
  numChunks := if wire.Has MessageFlags.chunks then wire.numChunks else 1
  sequenceNumber :=
    if wire.Has MessageFlags.sequentialId then context.prevMsgSeqNum (wire.channelIn context) + 1
    else wire.sequenceNumber
  sendReliableSeqNum :=
    if wire.Has MessageFlags.sequentialRelId then
      if wire.Has MessageFlags.reliable then context.prevReliableMsgSeqNum (wire.channelIn context) + 1
      else context.prevReliableMsgSeqNum (wire.channelIn context)
    else wire.sendReliableSeqNum
  data := wire.payload
  isConnecting := wire.flags &&& MessageFlags.connecting != 0

-- No reserved flag, a size that the size field holds and a channel that exists.
structure WellFormed (wire : FrameWire) (context : WalkContext) : Prop where
  unreserved : wire.flags &&& unusedFlags = 0
  sized : wire.payload.length < 2^16
  real : (wire.channelIn context).toNat < maxChannels

end FrameWire

-- The bytes are well-formed frames from the first to the last, each read in the
-- context that the frames before it leave.
inductive FramesOf : WalkContext → Bytes → List MessageData → Prop where
  | done : FramesOf context [] []
  | frame {wire : FrameWire} : wire.WellFormed context → FramesOf (context.after (wire.message context)) rest frames →
      FramesOf context (wire.bytes ++ rest) (wire.message context :: frames)

section Header
variable {write : α → Bytes} {read : Reader ε α}

-- A field that is read when a flag is set and has a value of its own when not.
theorem optional_iff (back : ∀ value, ReadsBack write read value) (only : ReadsOnly write read)
    {present : Prop} [Decidable present] :
    (if present then (read bytes).toOption else some (inferred,bytes)) = some (value,rest) ↔
      ∃ written, bytes = (if present then write written else []) ++ rest ∧
        value = if present then written else inferred := by
  by_cases given : present
  · simp only [if_pos given]
    constructor
    · intro ran
      cases taken : read bytes with
      | error error => rw [taken] at ran; cases ran
      | ok pair =>
        rw [taken] at ran
        cases ran
        exact ⟨value,only taken,rfl⟩
    · rintro ⟨written,rfl,rfl⟩
      rw [back value rest]
      rfl
  · simp only [if_neg given,Option.some.injEq,Prod.mk.injEq,List.nil_append]
    constructor
    · rintro ⟨same,rfl⟩
      exact ⟨value,rfl,same.symm⟩
    · rintro ⟨_,rfl,rfl⟩
      exact ⟨rfl,rfl⟩

theorem inferred_iff (back : ∀ value, ReadsBack write read value) (only : ReadsOnly write read)
    {given : Prop} [Decidable given] :
    (if given then some (inferred,bytes) else (read bytes).toOption) = some (value,rest) ↔
      ∃ written, bytes = (if given then [] else write written) ++ rest ∧
        value = if given then inferred else written := by
  have turned : (if ¬given then (read bytes).toOption else some (inferred,bytes)) = some (value,rest) ↔ _ :=
    optional_iff back only
  simpa only [ite_not] using turned

theorem absent_u16 {given : Prop} [Decidable given] (value inferred : BitVec 16) (rest : Bytes) :
    (if given then some (inferred,(if given then [] else writeU16 value) ++ rest)
      else (readU16 ((if given then [] else writeU16 value) ++ rest)).toOption) =
    some (if given then inferred else value,rest) := by
  by_cases inferring : given <;> simp [inferring]

theorem required_iff (back : ∀ value, ReadsBack write read value) (only : ReadsOnly write read) :
    (read bytes).toOption = some (value,rest) ↔ bytes = write value ++ rest := by
  constructor
  · intro ran
    cases taken : read bytes with
    | error error => rw [taken] at ran; cases ran
    | ok pair =>
      rw [taken] at ran
      cases ran
      exact only taken
  · rintro rfl
    rw [back value rest]
    rfl

theorem payload_iff : (readBytes len bytes).toOption = some (payload,rest) ↔
    payload.length = len ∧ bytes = payload ++ rest := by
  constructor
  · intro ran
    cases taken : readBytes len bytes with
    | error error => rw [taken] at ran; cases ran
    | ok pair =>
      rw [taken] at ran
      cases ran
      exact (readBytes_ok taken).symm
  · rintro ⟨rfl,rfl⟩
    rw [readBytes_append]
    rfl

-- The reader takes the well-formed frames and nothing else.
theorem readHeader_iff : readHeader context buffer = some (msg,next,rest) ↔
    ∃ wire : FrameWire, wire.WellFormed context ∧ buffer = wire.bytes ++ rest ∧
      msg = wire.message context ∧ next = context.after msg := by
  constructor
  · intro ran
    unfold readHeader at ran
    obtain ⟨⟨flags,_⟩,first,ran⟩ := Option.bind_eq_some_iff.mp ran
    dsimp only at ran
    split at ran
    · cases ran
    · rename_i unreserved
      obtain ⟨⟨dataSize,_⟩,second,ran⟩ := Option.bind_eq_some_iff.mp ran
      obtain ⟨⟨currentChannel,_⟩,third,ran⟩ := Option.bind_eq_some_iff.mp ran
      dsimp only at ran third
      split at ran
      · cases ran
      · rename_i real
        obtain ⟨⟨numChunks,_⟩,fourth,ran⟩ := Option.bind_eq_some_iff.mp ran
        obtain ⟨⟨sequenceNumber,_⟩,fifth,ran⟩ := Option.bind_eq_some_iff.mp ran
        obtain ⟨⟨sendReliableSeqNum,_⟩,sixth,ran⟩ := Option.bind_eq_some_iff.mp ran
        obtain ⟨⟨payload,_⟩,last,ran⟩ := Option.bind_eq_some_iff.mp ran
        cases Option.some.inj ran
        obtain rfl := (required_iff u8_back u8_only).mp first
        obtain rfl := (required_iff u16_back u16_only).mp second
        obtain ⟨channelWritten,rfl,rfl⟩ := (optional_iff u8_back u8_only).mp third
        obtain ⟨chunksWritten,rfl,rfl⟩ := (optional_iff u16_back u16_only).mp fourth
        obtain ⟨seqWritten,rfl,rfl⟩ := (inferred_iff u16_back u16_only).mp fifth
        rw [some_choice] at sixth
        obtain ⟨relWritten,rfl,rfl⟩ := (inferred_iff u16_back u16_only).mp sixth
        obtain ⟨size,rfl⟩ := payload_iff.mp last
        refine ⟨⟨flags,channelWritten,chunksWritten,seqWritten,relWritten,payload⟩,
          ⟨not_not.mp unreserved,?_,Nat.not_le.mp real⟩,?_,rfl,rfl⟩
        · rw [size]
          exact dataSize.isLt
        · have same : BitVec.ofNat 16 payload.length = dataSize := by
            rw [size,BitVec.ofNat_toNat,BitVec.setWidth_eq]
          simp only [FrameWire.bytes,same,List.append_assoc]
  · rintro ⟨wire,formed,rfl,rfl,rfl⟩
    have size : (BitVec.ofNat 16 wire.payload.length).toNat = wire.payload.length := by
      rw [BitVec.toNat_ofNat,Nat.mod_eq_of_lt formed.sized]
    have kept : readBytes wire.payload.length (wire.payload ++ rest) = .ok (wire.payload,rest) :=
      readBytes_append _ _
    unfold readHeader FrameWire.bytes
    simp only [List.append_assoc,writeU8,List.cons_append,List.nil_append,readU8_cons]
    simp only [toOption_ok,Option.bind_eq_bind,Option.bind_some,readU16_writeU16,
      if_neg (not_not.mpr formed.unreserved),optional_u8,optional_u16,absent_u16,some_choice]
    have real : ¬maxChannels ≤
        (if wire.Has MessageFlags.dataChannel then wire.channel else context.currentChannel).toNat :=
      Nat.not_le.mpr formed.real
    rw [if_neg real,size,kept]
    rfl

end Header

section Walk

theorem frame_shortens (wire : FrameWire) (rest : Bytes) : rest.length < (wire.bytes ++ rest).length := by
  simp only [FrameWire.bytes,writeU8,List.append_assoc,List.cons_append,List.nil_append,List.length_cons,
    List.length_append]
  omega

theorem framesOf_nil : FramesOf context buffer [] ↔ buffer = [] := by
  constructor
  · intro whole
    cases whole
    rfl
  · rintro rfl
    exact .done

theorem framesOf_cons : FramesOf context buffer (msg :: frames) ↔
    ∃ next rest, readHeader context buffer = some (msg,next,rest) ∧ FramesOf next rest frames := by
  constructor
  · intro whole
    cases whole with
    | frame formed others => exact ⟨_,_,readHeader_iff.mpr ⟨_,formed,rfl,rfl,rfl⟩,others⟩
  · rintro ⟨next,rest,read,others⟩
    obtain ⟨wire,formed,rfl,rfl,rfl⟩ := readHeader_iff.mp read
    exact .frame formed others

theorem walkFrom_empty (fuel : Nat) (context : WalkContext) : walkFrom fuel context [] = [] := by
  cases fuel <;> rfl

-- A payload that is whole is walked to its end.
theorem walk_whole (whole : FramesOf context buffer frames) (enough : buffer.length ≤ fuel) :
    walkFrom fuel context buffer = frames := by
  induction whole generalizing fuel with
  | done => exact walkFrom_empty fuel _
  | @frame context rest frames wire formed others ih =>
    have shorter := frame_shortens wire rest
    obtain ⟨fuel,rfl⟩ : ∃ smaller, fuel = smaller + 1 := ⟨fuel - 1,by omega⟩
    have present : (wire.bytes ++ rest).isEmpty = false := by
      rw [List.isEmpty_eq_false_iff,←List.length_pos_iff]
      omega
    have read : readHeader context (wire.bytes ++ rest) = some (wire.message context,_,rest) :=
      readHeader_iff.mpr ⟨wire,formed,rfl,rfl,rfl⟩
    rw [walkFrom_more present read,ih (by omega)]

-- Any other payload is walked up to the first frame that is not well formed, and
-- nothing of what follows shows in the frames.
theorem walk_prefix (enough : buffer.length ≤ fuel) :
    ∃ taken left, buffer = taken ++ left ∧ FramesOf context taken (walkFrom fuel context buffer) ∧
      (left ≠ [] → readHeader ((walkFrom fuel context buffer).foldl WalkContext.after context) left = none) := by
  induction fuel generalizing context buffer with
  | zero =>
    have empty := List.eq_nil_of_length_eq_zero (Nat.le_zero.mp enough)
    exact ⟨[],[],empty,.done,fun unread => absurd rfl unread⟩
  | succ fuel ih =>
    cases present : buffer.isEmpty with
    | true =>
      rw [List.isEmpty_iff.mp present]
      exact ⟨[],[],rfl,.done,fun unread => absurd rfl unread⟩
    | false =>
      cases read : readHeader context buffer with
      | none =>
        rw [walkFrom_stop read]
        exact ⟨[],buffer,rfl,.done,fun _ => read⟩
      | some triple =>
        obtain ⟨msg,next,rest⟩ := triple
        rw [walkFrom_more present read]
        obtain ⟨wire,formed,rfl,rfl,rfl⟩ := readHeader_iff.mp read
        have shorter := frame_shortens wire rest
        obtain ⟨taken,left,rfl,whole,stuck⟩ := ih (Nat.le_of_lt_succ (Nat.lt_of_lt_of_le shorter enough))
        exact ⟨wire.bytes ++ taken,left,(List.append_assoc ..).symm,.frame formed whole,stuck⟩

theorem walkFrames_whole_iff : FramesOf WalkContext.start payload (walkFrames payload) ↔
    ∃ frames, FramesOf WalkContext.start payload frames := by
  constructor
  · exact fun whole => ⟨_,whole⟩
  · rintro ⟨frames,whole⟩
    rw [walkFrames,walk_whole whole (Nat.le_refl _)]
    exact whole

end Walk

section Decode

-- The header and the payload, decompressed where the header says so.
def Opens (lz4 : Lz4) (data : Bytes) (header : DatagramHeader) (payload : Bytes) : Prop :=
  ∃ rest, DatagramHeader.unmarshal data = .ok (header,rest) ∧
    if header.isCompressed then lz4.decompressPartial rest maxDecompressedBytes = some payload
    else rest = payload

theorem decode_ok_iff : decodeDatagram lz4 data = .ok decoded ↔
    Opens lz4 data decoded.header decoded.payload ∧ decoded.frames = walkFrames decoded.payload := by
  constructor
  · intro ran
    unfold decodeDatagram at ran
    split at ran
    · cases ran
    · rename_i opened
      split at ran
      · rename_i packed
        split at ran
        · cases ran
        · rename_i unpacked
          cases ran
          exact ⟨⟨_,opened,by rw [if_pos packed]; exact unpacked⟩,rfl⟩
      · rename_i plain
        cases ran
        exact ⟨⟨_,opened,by rw [if_neg plain]⟩,rfl⟩
  · rintro ⟨⟨rest,opened,payload⟩,frames⟩
    unfold decodeDatagram
    rw [opened]
    dsimp only
    split at payload
    · rename_i packed
      rw [if_pos packed,payload]
      dsimp only
      rw [←frames]
    · rename_i plain
      rw [if_neg plain,payload,←frames]

-- A payload that opens is always accepted, with the frames before the first broken one.
theorem decode_prefix (opens : Opens lz4 data header payload) :
    ∃ frames taken left, decodeDatagram lz4 data = .ok ⟨header,payload,frames⟩ ∧ payload = taken ++ left ∧
      FramesOf WalkContext.start taken frames ∧
      (left ≠ [] → readHeader (frames.foldl WalkContext.after WalkContext.start) left = none) := by
  obtain ⟨taken,left,parts,whole,stuck⟩ := walk_prefix (Nat.le_refl payload.length)
  exact ⟨walkFrames payload,taken,left,decode_ok_iff.mpr ⟨opens,rfl⟩,parts,whole,stuck⟩

-- Whole datagrams only, and the error of the frame walk for every other payload.
def AcceptsOnlyWhole (lz4 : Lz4) (data : Bytes) : Prop :=
  (∀ decoded, decodeDatagram lz4 data = .ok decoded →
    FramesOf WalkContext.start decoded.payload decoded.frames) ∧
  (∀ header payload, Opens lz4 data header payload → (∀ frames, ¬FramesOf WalkContext.start payload frames) →
    ∃ leftover, decodeDatagram lz4 data = .error (.frameParseStop payload.length leftover))

theorem accepts_only_whole_iff (lz4 : Lz4) (data : Bytes) : AcceptsOnlyWhole lz4 data ↔
    ∀ header payload, Opens lz4 data header payload → ∃ frames, FramesOf WalkContext.start payload frames := by
  constructor
  · rintro ⟨accepted,-⟩ header payload opens
    have whole := accepted ⟨header,payload,walkFrames payload⟩ (decode_ok_iff.mpr ⟨opens,rfl⟩)
    exact ⟨_,whole⟩
  · intro splits
    constructor
    · intro decoded ran
      obtain ⟨opens,frames⟩ := decode_ok_iff.mp ran
      rw [frames]
      exact walkFrames_whole_iff.mpr (splits _ _ opens)
    · intro header payload opens broken
      obtain ⟨frames,whole⟩ := splits header payload opens
      exact absurd whole (broken frames)

-- The second of two frames says that five bytes follow it and one does.
def truncatedDatagram : Bytes := [0x80,0x01,0x00,0x07,0x38,0x00,0x01,0x00,0xaa,0x38,0x00,0x05,0x00,0xbb]

def noCompressor : Lz4 := ⟨id,fun _ _ => none⟩

def firstFrame : MessageData := { MessageData.new with sequenceNumber := 1, sendReliableSeqNum := 0, data := [0xaa] }

theorem truncated_frame_accepted : ¬AcceptsOnlyWhole noCompressor truncatedDatagram := by
  rintro ⟨accepted,-⟩
  have ran : decodeDatagram noCompressor truncatedDatagram =
      .ok ⟨⟨false,true,7⟩,[0x38,0x00,0x01,0x00,0xaa,0x38,0x00,0x05,0x00,0xbb],[firstFrame]⟩ := by decide
  obtain ⟨next,rest,read,others⟩ := framesOf_cons.mp (accepted _ ran)
  rw [framesOf_nil.mp others] at read
  have left : (readHeader WalkContext.start [0x38,0x00,0x01,0x00,0xaa,0x38,0x00,0x05,0x00,0xbb]).map (·.2.2) =
      some [0x38,0x00,0x05,0x00,0xbb] := by decide
  rw [read] at left
  cases left

end Decode

end NwNetwork.Carrier
