import NwNetwork.CarrierDatagramFill

namespace NwNetwork.Carrier
open WireReader Serialize

section Header

-- The flags as a function of the six facts they carry.
def flagsOf (reliable chunked seq rel chan connecting : Bool) : UInt8 :=
  (if reliable then MessageFlags.reliable else 0) |||
  (if chunked then MessageFlags.chunks else 0) |||
  (if seq then 0 else MessageFlags.sequentialId) |||
  (if rel then 0 else MessageFlags.sequentialRelId) |||
  (if chan then MessageFlags.dataChannel else 0) |||
  (if connecting then MessageFlags.connecting else 0)

theorem flagsOf_reads : ∀ reliable chunked seq rel chan connecting : Bool,
    let flags := flagsOf reliable chunked seq rel chan connecting
    flags &&& unusedFlags = 0 ∧ (flags &&& MessageFlags.reliable ≠ 0 ↔ reliable = true) ∧
    (flags &&& MessageFlags.chunks ≠ 0 ↔ chunked = true) ∧
    (flags &&& MessageFlags.sequentialId ≠ 0 ↔ seq = false) ∧
    (flags &&& MessageFlags.sequentialRelId ≠ 0 ↔ rel = false) ∧
    (flags &&& MessageFlags.dataChannel ≠ 0 ↔ chan = true) ∧
    (flags &&& MessageFlags.connecting != 0) = connecting := by
  decide

theorem headerFlags_reads (msg : MessageData) (form : HeaderForm) :
    headerFlags msg form &&& unusedFlags = 0 ∧
    (headerFlags msg form &&& MessageFlags.reliable ≠ 0 ↔ msg.reliability = .reliable) ∧
    (headerFlags msg form &&& MessageFlags.chunks ≠ 0 ↔ 1 < msg.numChunks.toNat) ∧
    (headerFlags msg form &&& MessageFlags.sequentialId ≠ 0 ↔ form.isWriteSeqNumber = false) ∧
    (headerFlags msg form &&& MessageFlags.sequentialRelId ≠ 0 ↔ form.isWriteReliableSeqNum = false) ∧
    (headerFlags msg form &&& MessageFlags.dataChannel ≠ 0 ↔ form.isWriteChannel = true) ∧
    (headerFlags msg form &&& MessageFlags.connecting != 0) = msg.isConnecting := by
  have same : headerFlags msg form = flagsOf (decide (msg.reliability = .reliable))
      (decide (1 < msg.numChunks.toNat)) form.isWriteSeqNumber form.isWriteReliableSeqNum
      form.isWriteChannel msg.isConnecting := by
    simp only [headerFlags,flagsOf,decide_eq_true_eq]
  have reads := flagsOf_reads (decide (msg.reliability = .reliable)) (decide (1 < msg.numChunks.toNat))
    form.isWriteSeqNumber form.isWriteReliableSeqNum form.isWriteChannel msg.isConnecting
  rw [same]
  simpa only [decide_eq_true_eq] using reads

theorem optional_u16 {present : Prop} [Decidable present] (value default : BitVec 16) (rest : Bytes) :
    (if present then (readU16 ((if present then writeU16 value else []) ++ rest)).toOption
      else some (default,(if present then writeU16 value else []) ++ rest)) =
    some (if present then value else default,rest) := by
  by_cases given : present <;> simp [given]

theorem inferred_u16 (written : Bool) (value default : BitVec 16) (rest : Bytes) :
    (if written = false then some (default,(if written = true then writeU16 value else []) ++ rest)
      else (readU16 ((if written = true then writeU16 value else []) ++ rest)).toOption) =
    some (if written = true then value else default,rest) := by
  cases written <;> simp

theorem optional_u8 {present : Prop} [Decidable present] (value default : UInt8) (rest : Bytes) :
    (if present then (readU8 ((if present then [value] else []) ++ rest)).toOption
      else some (default,(if present then [value] else []) ++ rest)) =
    some (if present then value else default,rest) := by
  by_cases given : present <;> simp [given]

theorem some_choice {present : Prop} [Decidable present] (one two : α) (rest : β) :
    (if present then some (one,rest) else some (two,rest)) = some (if present then one else two,rest) := by
  split <;> rfl

-- What the reader makes of a written frame in any context of its own.
def frameRead (context : WalkContext) (msg : MessageData) (form : HeaderForm) (payload : Bytes) : MessageData :=
  let channel := if form.isWriteChannel then msg.channel else context.currentChannel
  { msg with
    channel := channel
    numChunks := if 1 < msg.numChunks.toNat then msg.numChunks else 1
    sequenceNumber := if form.isWriteSeqNumber then msg.sequenceNumber
      else context.prevMsgSeqNum channel + 1
    sendReliableSeqNum := if form.isWriteReliableSeqNum then msg.sendReliableSeqNum
      else if msg.reliability = .reliable then context.prevReliableMsgSeqNum channel + 1
      else context.prevReliableMsgSeqNum channel
    data := payload }

def WalkContext.after (context : WalkContext) (msg : MessageData) : WalkContext :=
  ⟨context.prevMsgSeqNum.set msg.channel msg.sequenceNumber,
    context.prevReliableMsgSeqNum.set msg.channel msg.sendReliableSeqNum,msg.channel⟩

theorem readHeader_written (context : WalkContext) (msg : MessageData) (form : HeaderForm) (rest : Bytes) :
    readHeader context (writeMessageHeader msg form ++ rest) =
      if maxChannels ≤ (if form.isWriteChannel then msg.channel else context.currentChannel).toNat then none
      else (readBytes (msg.data.length % 2^16) rest).toOption.map fun (payload,buffer) =>
        (frameRead context msg form payload,context.after (frameRead context msg form payload),buffer) := by
  obtain ⟨unused,reliable,chunks,seq,rel,chan,connecting⟩ := headerFlags_reads msg form
  unfold readHeader writeMessageHeader
  simp only [List.append_assoc,writeU8,List.cons_append,List.nil_append,readU8_cons]
  simp only [toOption_ok,Option.bind_eq_bind,Option.bind_some,readU16_writeU16,if_neg (not_not.mpr unused)]
  simp only [chan,chunks,seq,rel,reliable,connecting,optional_u8,optional_u16,inferred_u16,some_choice,
    Option.bind_some,BitVec.toNat_ofNat]
  by_cases far : maxChannels ≤ (if form.isWriteChannel then msg.channel else context.currentChannel).toNat
  · rw [if_pos far,if_pos far]
  · rw [if_neg far,if_neg far]
    have kind : (if msg.reliability = .reliable then DataReliability.reliable else .unreliable) =
        msg.reliability := by
      cases msg.reliability <;> rfl
    rw [kind]
    cases readBytes (msg.data.length % 2^16) rest <;> rfl

end Header

-- What the reader has seen of the frames that the writer's context speaks of.
structure Follows (writer : WriteContext) (reader : WalkContext) (wire : UInt8) : Prop where
  seq : reader.prevMsgSeqNum = writer.lastSequenceNumber
  rel : reader.prevReliableMsgSeqNum = writer.lastSeqReliableNumber
  channel : reader.currentChannel = wire

-- A frame that the reader gets back as it was: a chunk count of at least one, a
-- length that the size field holds, and a channel that is written unless it is
-- the channel of the frame before it.
def Readable (writer : WriteContext) (wire : UInt8) (msg : MessageData) : Prop :=
  msg.numChunks ≠ 0 ∧ msg.data.length < 2^16 ∧ (msg.channel = writer.currentChannel → msg.channel = wire)

-- Every message that fits when the loop gets to it is readable. `wire` is the
-- channel of the last frame in the datagram so far.
inductive Legible (maxDatagramSize : Nat) : List Queued → Filling → UInt8 → Prop where
  | done : Legible maxDatagramSize [] filling wire
  | next : Legible maxDatagramSize queues filling wire →
      Legible maxDatagramSize ((priority,[]) :: queues) filling wire
  | takes : filling.Fits maxDatagramSize msg → Readable filling.context wire msg →
      Legible maxDatagramSize ((priority,queue) :: queues) (filling.write priority msg) msg.channel →
      Legible maxDatagramSize ((priority,msg :: queue) :: queues) filling wire
  | leaves : ¬filling.Fits maxDatagramSize msg →
      Legible maxDatagramSize queues (filling.look msg) wire →
      Legible maxDatagramSize ((priority,msg :: queue) :: queues) filling wire

section Read
variable {writer : WriteContext} {reader : WalkContext} {msg : MessageData}

theorem follows_look (follows : Follows writer reader wire) : Follows (writer.look msg) reader wire :=
  ⟨follows.seq,follows.rel,follows.channel⟩

theorem follows_wrote (follows : Follows writer reader wire) :
    Follows ((writer.look msg).wrote msg) (reader.after msg) msg.channel := by
  refine ⟨?_,?_,rfl⟩
  · exact congrArg (PerChannel.set · msg.channel msg.sequenceNumber) follows.seq
  · exact congrArg (PerChannel.set · msg.channel msg.sendReliableSeqNum) follows.rel

-- The reader infers what the writer left out.
theorem frameRead_same (follows : Follows writer reader wire) (readable : Readable writer wire msg) :
    frameRead reader msg (writer.form msg) msg.data = msg := by
  obtain ⟨counted,_,announced⟩ := readable
  have channel : (if (writer.form msg).isWriteChannel then msg.channel else reader.currentChannel) =
      msg.channel := by
    by_cases same : msg.channel = writer.currentChannel
    · simp only [WriteContext.form,same,follows.channel]
      simpa [same] using (announced same).symm
    · simp [WriteContext.form,same]
  have chunks : (if 1 < msg.numChunks.toNat then msg.numChunks else 1) = msg.numChunks := by
    split
    · rfl
    · have positive : msg.numChunks.toNat ≠ 0 := fun zero => counted (BitVec.eq_of_toNat_eq zero)
      exact BitVec.eq_of_toNat_eq (by change 1 = _; omega)
  have seq : (if (writer.form msg).isWriteSeqNumber then msg.sequenceNumber
      else writer.lastSequenceNumber msg.channel + 1) = msg.sequenceNumber := by
    split
    · rfl
    · rename_i inferred
      simp only [WriteContext.form] at inferred
      split at inferred
      · exact ((distance_one_iff _ _).mp (by simpa using inferred)).symm
      · exact absurd rfl inferred
  have rel : (if (writer.form msg).isWriteReliableSeqNum then msg.sendReliableSeqNum
      else if msg.reliability = .reliable then writer.lastSeqReliableNumber msg.channel + 1
      else writer.lastSeqReliableNumber msg.channel) = msg.sendReliableSeqNum := by
    split
    · rfl
    · rename_i inferred
      simp only [WriteContext.form] at inferred
      split at inferred
      · by_cases reliable : msg.reliability = .reliable
        · rw [if_pos reliable] at inferred ⊢
          exact ((distance_one_iff _ _).mp (by simpa using inferred)).symm
        · rw [if_neg reliable] at inferred
          exact absurd rfl inferred
      · exact absurd rfl inferred
  unfold frameRead
  simp only [channel,chunks,follows.seq,follows.rel,seq,rel]

-- No frame but a readable one comes out as it went in.
theorem readable_of_read (follows : Follows writer reader wire)
    (same : frameRead reader msg (writer.form msg) payload = msg) (size : payload.length = msg.data.length % 2^16) :
    Readable writer wire msg := by
  have chunks : (if 1 < msg.numChunks.toNat then msg.numChunks else 1) = msg.numChunks :=
    congrArg MessageData.numChunks same
  have channel : (if (writer.form msg).isWriteChannel then msg.channel else reader.currentChannel) =
      msg.channel := congrArg MessageData.channel same
  have data : payload = msg.data := congrArg MessageData.data same
  refine ⟨?_,?_,?_⟩
  · intro zero
    rw [zero] at chunks
    exact absurd chunks (by decide)
  · rw [data] at size
    omega
  · intro current
    simp only [WriteContext.form,current,ne_eq,not_true_eq_false,decide_false,follows.channel] at channel
    rw [current]
    exact channel.symm

theorem frame_nonempty (msg : MessageData) (form : HeaderForm) (rest : Bytes) :
    (writeMessageHeader msg form ++ rest).isEmpty = false := by
  simp [writeMessageHeader,writeU8]

theorem walkFrom_stop (failed : readHeader context buffer = none) (fuel : Nat) :
    walkFrom fuel context buffer = [] := by
  cases fuel with
  | zero => rfl
  | succ fuel =>
    unfold walkFrom
    rw [failed]
    split <;> rfl

theorem walkFrom_more (present : buffer.isEmpty = false) (read : readHeader context buffer = some (msg,next,rest))
    (fuel : Nat) : walkFrom (fuel + 1) context buffer = msg :: walkFrom fuel next rest := by
  rw [walkFrom,present,read]
  rfl

-- The walk over the bytes of one frame and whatever follows them.
theorem walk_frame (follows : Follows writer reader wire) (real : msg.channel.toNat < maxChannels)
    (frames : List MessageData) (rest : Bytes) (fuel : Nat) :
    walkFrom (fuel + 1) reader (writeMessageHeader msg (writer.form msg) ++ (msg.data ++ rest)) = msg :: frames ↔
      Readable writer wire msg ∧ walkFrom fuel (reader.after msg) rest = frames := by
  have header := readHeader_written reader msg (writer.form msg) (msg.data ++ rest)
  have present := frame_nonempty msg (writer.form msg) (msg.data ++ rest)
  constructor
  · intro read
    by_cases far : maxChannels ≤
        (if (writer.form msg).isWriteChannel then msg.channel else reader.currentChannel).toNat
    · rw [if_pos far] at header
      rw [walkFrom_stop header] at read
      cases read
    · rw [if_neg far] at header
      cases taken : readBytes (msg.data.length % 2^16) (msg.data ++ rest) with
      | error =>
        rw [taken] at header
        rw [walkFrom_stop header] at read
        cases read
      | ok pair =>
        obtain ⟨payload,buffer⟩ := pair
        rw [taken] at header
        rw [walkFrom_more present header] at read
        obtain ⟨same,others⟩ := List.cons.inj read
        obtain ⟨split,size⟩ := readBytes_ok taken
        have readable := readable_of_read follows same size
        have data : payload = msg.data := congrArg MessageData.data same
        rw [data] at split
        rw [same,←List.append_cancel_left split] at others
        exact ⟨readable,others⟩
  · rintro ⟨readable,others⟩
    have whole := frameRead_same follows readable
    have channel : (if (writer.form msg).isWriteChannel then msg.channel else reader.currentChannel) =
        msg.channel := congrArg MessageData.channel whole
    have taken : readBytes (msg.data.length % 2^16) (msg.data ++ rest) = .ok (msg.data,rest) := by
      rw [Nat.mod_eq_of_lt readable.2.1]
      exact readBytes_append _ _
    rw [channel,if_neg (Nat.not_le.mpr real),taken] at header
    rw [walkFrom_more present header,whole,others]

-- The bytes that the rest of the loop adds are walked back to the messages it
-- pops exactly when these are legible.
theorem fill_reads (filled : Filled maxDatagramSize queues filling popped left final) :
    ∃ extra, final.payloadBuffer = filling.payloadBuffer ++ extra ∧
      ∀ reader wire fuel, Follows filling.context reader wire → extra.length ≤ fuel →
        (walkFrom fuel reader extra = popped.map Prod.snd ↔ Legible maxDatagramSize queues filling wire) := by
  induction filled with
  | done =>
    refine ⟨[],(List.append_nil _).symm,?_⟩
    intro reader wire fuel _ _
    have nothing : walkFrom fuel reader [] = [] := by cases fuel <;> rfl
    exact ⟨fun _ => .done,fun _ => nothing⟩
  | next _ ih =>
    obtain ⟨extra,added,reads⟩ := ih
    refine ⟨extra,added,?_⟩
    intro reader wire fuel follows enough
    rw [reads reader wire fuel follows enough]
    constructor
    · exact .next
    · intro legible
      cases legible with
      | next rest => exact rest
  | takes real fits filled ih =>
    rename_i priority queue queues popped rest left final msg filling
    obtain ⟨extra,added,reads⟩ := ih
    refine ⟨writeMessageHeader msg (filling.context.form msg) ++ (msg.data ++ extra),?_,?_⟩
    · rw [added]
      simp only [Filling.write,List.append_assoc]
    · intro reader wire fuel follows enough
      obtain ⟨fuel,rfl⟩ : ∃ n, fuel = n + 1 := by
        apply Nat.exists_eq_succ_of_ne_zero
        rintro rfl
        have some_bytes := frame_nonempty msg (filling.context.form msg) (msg.data ++ extra)
        rw [List.length_eq_zero_iff.mp (Nat.le_zero.mp enough)] at some_bytes
        cases some_bytes
      have shorter : extra.length ≤ fuel := by
        have header := messageHeaderSize_exact msg (filling.context.form msg)
        simp only [List.length_append,header,messageHeaderSize,HeaderSizes.flags] at enough
        omega
      rw [List.map_cons,walk_frame follows real _ _ _,reads _ _ _ (follows_wrote follows) shorter]
      constructor
      · rintro ⟨readable,others⟩
        exact .takes fits readable others
      · intro legible
        cases legible with
        | takes _ readable others => exact ⟨readable,others⟩
        | leaves tooLong => exact absurd fits tooLong
  | leaves _ tooLong _ ih =>
    obtain ⟨extra,added,reads⟩ := ih
    refine ⟨extra,added,?_⟩
    intro reader wire fuel follows enough
    rw [reads reader wire fuel (follows_look follows) enough]
    constructor
    · exact .leaves tooLong
    · intro legible
      cases legible with
      | takes fits => exact absurd fits tooLong
      | leaves _ others => exact others

theorem start_follows : Follows WriteContext.start WalkContext.start 0 := ⟨rfl,rfl,rfl⟩

end Read

-- The datagram is opened again to the payload that was put into it.
theorem decode_finished (lz4 : Lz4) (compressing : Bool) (seq : SequenceNumber) (payload : Bytes)
    (undone : lz4.decompressPartial (lz4.compress payload) maxDecompressedBytes = some payload) :
    ∃ header, decodeDatagram lz4 (finishDatagram lz4 compressing seq payload) =
      .ok ⟨header,payload,walkFrames payload⟩ ∧ header.sequenceNumber = seq := by
  have plain : ∃ header, decodeDatagram lz4 (datagramBytes DatagramHeader.uncompressed seq payload) =
      .ok ⟨header,payload,walkFrames payload⟩ ∧ header.sequenceNumber = seq := by
    unfold decodeDatagram datagramBytes
    rw [unmarshal_written (Or.inl (Eq.refl DatagramHeader.uncompressed))]
    exact ⟨_,rfl,rfl⟩
  unfold finishDatagram
  cases compressing with
  | false => exact plain
  | true =>
    by_cases longer : payload.length ≤ (lz4.compress payload).length
    · simpa only [if_true,if_pos longer] using plain
    · rw [if_pos rfl,if_neg longer]
      unfold decodeDatagram datagramBytes
      rw [unmarshal_written (Or.inr (Eq.refl DatagramHeader.compressed))]
      simp only [DatagramHeader.compressed,undone]
      exact ⟨_,rfl,rfl⟩

theorem filled_room (filled : Filled maxDatagramSize queues filling popped left final)
    (limit : maxDatagramSize - DatagramHeader.size ≤ bound) (room : filling.payloadBuffer.length ≤ bound) :
    final.payloadBuffer.length ≤ bound := by
  induction filled with
  | done => exact room
  | next _ ih => exact ih room
  | takes _ fits _ ih =>
    apply ih
    unfold Filling.Fits at fits
    simp only [Filling.write,List.length_append,messageHeaderSize_exact]
    omega
  | leaves _ _ _ ih => exact ih room

def LegibleQueues (maxDatagramSize now : Nat) (queued : ConnectionState) : Prop :=
  Legible maxDatagramSize (priorities.map fun priority => (priority,queued.toSend priority))
    ⟨WriteContext.start,[],DatagramData.new (queued.datagramSeqNum + 1) now⟩ 0

theorem generated_frames {lz4 : Lz4} {queued after : ConnectionState}
    (undone : ∀ payload : Bytes, payload.length ≤ maxDatagramSize →
      lz4.decompressPartial (lz4.compress payload) maxDecompressedBytes = some payload)
    (ran : queued.generateDatagram lz4 now maxDatagramSize = some (.ok (some datagram),after)) :
    ∃ decoded, decodeDatagram lz4 datagram = .ok decoded ∧
      (decoded.frames = (poppedMessages queued.toSend after.toSend).map Prod.snd ↔
        LegibleQueues maxDatagramSize now queued) := by
  rcases generateDatagram_cases ran with ⟨popped,final,filled,_,sent,_⟩ | ⟨_,_,_,_,nothing,_⟩ | ⟨nothing,_⟩
  · obtain ⟨extra,added,reads⟩ := fill_reads filled
    have room := filled_room filled (Nat.sub_le _ _) (Nat.zero_le _)
    obtain ⟨header,opened,_⟩ := decode_finished lz4
      (queued.sendCompressed && queued.hasUserMessages && !queued.isConnecting)
      (queued.datagramSeqNum + 1) final.payloadBuffer (undone _ room)
    have walked := reads WalkContext.start 0 extra.length start_follows (Nat.le_refl _)
    rw [List.nil_append] at added
    rw [←added] at walked
    cases sent
    refine ⟨_,opened,?_⟩
    rw [LegibleQueues,←walked,(filled_popped filled).1]
    rfl
  · cases nothing
  · exact absurd rfl (nothing datagram)

-- The receiver's walk gives the messages that have left the queues.
def ReadsBackPopped (lz4 : Lz4) (datagram : Bytes) (queued after : ConnectionState) : Prop :=
  ∃ decoded, decodeDatagram lz4 datagram = .ok decoded ∧
    decoded.frames = (poppedMessages queued.toSend after.toSend).map Prod.snd

theorem frame_round_trip {lz4 : Lz4} {state after : ConnectionState}
    (undone : ∀ payload : Bytes, payload.length ≤ maxDatagramSize →
      lz4.decompressPartial (lz4.compress payload) maxDecompressedBytes = some payload)
    (ran : state.prepareOutgoingDatagram lz4 now maxDatagramSize = some (.ok (some datagram),after)) :
    ∃ queued, state.queueAcks now = some queued ∧
      (ReadsBackPopped lz4 datagram queued after ↔ LegibleQueues maxDatagramSize now queued) := by
  obtain ⟨queued,acks,generated⟩ := Option.bind_eq_some_iff.mp ran
  obtain ⟨decoded,opened,exact_frames⟩ := generated_frames undone generated
  refine ⟨queued,acks,?_⟩
  rw [←exact_frames,ReadsBackPopped,opened]
  constructor
  · rintro ⟨found,equal,same⟩
    cases equal
    exact same
  · exact fun same => ⟨decoded,rfl,same⟩

-- Stores a block as it is.
def storedBlocks : Lz4 := ⟨id,fun bytes limit => some (bytes.take limit)⟩

theorem storedBlocks_undone (small : maxDatagramSize ≤ maxDecompressedBytes) (payload : Bytes)
    (room : payload.length ≤ maxDatagramSize) :
    storedBlocks.decompressPartial (storedBlocks.compress payload) maxDecompressedBytes = some payload := by
  have limit : payload.length ≤ maxDecompressedBytes := Nat.le_trans room small
  simp only [storedBlocks,id,List.take_of_length_le limit]

def userMessage (channel : UInt8) (reliability : DataReliability) (data : Bytes) : MessageData :=
  { MessageData.new with channel := channel, reliability := reliability, data := data }

def queueAll (state : ConnectionState) (messages : List (MessageData × Nat)) : Option ConnectionState :=
  messages.foldlM (fun state message => state.queueMessage message.1 message.2) state

def twoChannels : ConnectionState :=
  (queueAll (ConnectionState.new 0 false) [(userMessage 0 .reliable [1,2],1),(userMessage 1 .reliable [3],2)]).getD
    (ConnectionState.new 0 false)

theorem frame_round_trip_twoChannels :
    ∃ datagram after, twoChannels.prepareOutgoingDatagram storedBlocks 0 Mtu.maxDatagramSize =
        some (.ok (some datagram),after) ∧
      ∃ queued, twoChannels.queueAcks 0 = some queued ∧
        (ReadsBackPopped storedBlocks datagram queued after ↔ LegibleQueues Mtu.maxDatagramSize 0 queued) :=
  ⟨_,_,rfl,frame_round_trip (storedBlocks_undone (by decide)) rfl⟩

-- A message on channel zero, one on channel one that no longer fits behind it and,
-- in the next queue, a short one on channel one.
def blockedChannel : ConnectionState :=
  (queueAll (ConnectionState.new 0 false) [(userMessage 0 .reliable [1,2],1),
    (userMessage 1 .reliable (List.replicate 30 0),1),(userMessage 1 .unreliable [3],2)]).getD
    (ConnectionState.new 0 false)

theorem channel_set_by_blocked_message :
    ¬∀ (lz4 : Lz4) (now maxDatagramSize : Nat) (state after : ConnectionState) (datagram : Bytes),
      (∀ payload : Bytes, payload.length ≤ maxDatagramSize →
        lz4.decompressPartial (lz4.compress payload) maxDecompressedBytes = some payload) →
      state.prepareOutgoingDatagram lz4 now maxDatagramSize = some (.ok (some datagram),after) →
      ∃ queued, state.queueAcks now = some queued ∧ ReadsBackPopped lz4 datagram queued after := by
  intro always
  obtain ⟨queued,same,decoded,opened,frames⟩ :=
    always storedBlocks 0 40 blockedChannel _ _ (storedBlocks_undone (by decide)) rfl
  cases Option.some.inj same
  have walked : decoded.frames.map (·.channel) = [0,0] := by
    cases opened
    rfl
  rw [frames] at walked
  exact absurd walked (by decide)

end NwNetwork.Carrier
