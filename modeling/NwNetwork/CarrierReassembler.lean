import NwNetwork.CarrierMessage
import NwNetwork.FifoMachine

namespace NwNetwork.Carrier
open WireReader

-- One index of the reassembler's parallel arrays.
structure ChannelState where
  staging : List MessageData
  receivedReliableSeqNum : SequenceNumber
  receivedSeqNum : SequenceNumber
  deriving DecidableEq, Repr

def ChannelState.new : ChannelState := ⟨[],sequenceNumberMax,sequenceNumberMax⟩

def ChannelState.push (state : ChannelState) (frames : List MessageData) : ChannelState :=
  { state with staging := state.staging ++ frames }

-- The loop of `chunks_ready` over the frames behind the first one.
def chunksFollow (prevRelSeq : SequenceNumber) : List MessageData → Bool
  | [] => true
  | chunk :: rest =>
    decide (chunk.reliability = .reliable) &&
    decide (sequenceNumberSequentialDistance prevRelSeq chunk.sendReliableSeqNum = 1) &&
    chunksFollow chunk.sendReliableSeqNum rest

theorem chunksFollow_cons (last : SequenceNumber) (frame : MessageData) (frames : List MessageData) :
    chunksFollow last (frame :: frames) = true ↔ frame.reliability = .reliable ∧
      frame.sendReliableSeqNum = last + 1 ∧ chunksFollow frame.sendReliableSeqNum frames = true := by
  simp only [chunksFollow,Bool.and_eq_true,decide_eq_true_eq,distance_one_iff,and_assoc]

def chunksReady (staging : List MessageData) (numChunks : Nat) : Bool :=
  if staging.length < numChunks then false else
  match staging with
  | [] => false
  | first :: rest =>
    decide (first.reliability = .reliable) &&
    chunksFollow first.sendReliableSeqNum (rest.take (numChunks-1))

-- What is handed up for a run of chunks: the data of all of them under the
-- numbers of the last one.
def assembled (channel : UInt8) (chunks : List MessageData) : MessageData :=
  { MessageData.new with
    channel := channel
    reliability := .reliable
    numChunks := 1
    sequenceNumber := (chunks.getLast?.map (·.sequenceNumber)).getD 0
    sendReliableSeqNum := (chunks.getLast?.map (·.sendReliableSeqNum)).getD 0
    data := chunks.flatMap (·.data) }

def assembleChunks (channel : UInt8) (state : ChannelState) (numChunks : Nat) :
    MessageData × ChannelState :=
  let msg := assembled channel (state.staging.take numChunks)
  (msg,⟨state.staging.drop numChunks,msg.sendReliableSeqNum,msg.sequenceNumber⟩)

-- Delivery of a single frame from the head of the queue.
def deliverHead (state : ChannelState) (head : MessageData) (rest : List MessageData) :
    MessageData × ChannelState :=
  (head,⟨rest,if head.reliability = .reliable then head.sendReliableSeqNum
    else state.receivedReliableSeqNum,head.sequenceNumber⟩)

-- Only the head of the queue is ever examined: a head that cannot be delivered
-- holds back every frame behind it.
def ChannelState.nextReady (channel : UInt8) (state : ChannelState) :
    Option (MessageData × ChannelState) :=
  match state.staging with
  | [] => none
  | head :: rest =>
    let lastRel := state.receivedReliableSeqNum
    let nothingDeliveredYet := lastRel = sequenceNumberMax
    let dist := sequenceNumberSequentialDistance lastRel head.sendReliableSeqNum
    match head.reliability with
    | .reliable =>
      if dist ≠ 1 then none
      else if 1 < head.numChunks.toNat then
        if state.staging.length < head.numChunks.toNat then none
        else if chunksReady state.staging head.numChunks.toNat then
          some (assembleChunks channel state head.numChunks.toNat)
        else none
      else some (deliverHead state head rest)
    | .unreliable =>
      if ¬nothingDeliveredYet ∧ 0 < dist then none
      else some (deliverHead state head rest)

abbrev Reassembler := PerChannel ChannelState

namespace Reassembler

def new : Reassembler := fun _ => ChannelState.new

-- Frames of a channel that does not exist are dropped.
def accept (reassembler : Reassembler) (frame : MessageData) : Reassembler :=
  if frame.channel.toNat < maxChannels then
    reassembler.set frame.channel ((reassembler frame.channel).push [frame])
  else reassembler

def nextReady (reassembler : Reassembler) (channel : UInt8) : Option (MessageData × Reassembler) :=
  (ChannelState.nextReady channel (reassembler channel)).map
    fun (msg,state) => (msg,reassembler.set channel state)

end Reassembler

section Queue
variable {channel : UInt8} {state next : ChannelState}

@[simp] theorem push_staging (state : ChannelState) (frames : List MessageData) :
    (state.push frames).staging = state.staging ++ frames := rfl
@[simp] theorem push_reliable (state : ChannelState) (frames : List MessageData) :
    (state.push frames).receivedReliableSeqNum = state.receivedReliableSeqNum := rfl
@[simp] theorem push_nil (state : ChannelState) : state.push [] = state := by
  simp [ChannelState.push]
@[simp] theorem push_push (state : ChannelState) (first second : List MessageData) :
    (state.push first).push second = state.push (first ++ second) := by
  simp [ChannelState.push]

-- Everything a delivery can be: a single frame that passes the gate, or a run
-- of chunks that starts with the next reliable number.
theorem nextReady_cases (ready : state.nextReady channel = some (msg,next)) :
    (∃ rest, state.staging = msg :: rest ∧ next = (deliverHead state msg rest).2 ∧
      ((msg.reliability = .unreliable ∧ (state.receivedReliableSeqNum = sequenceNumberMax ∨
          sequenceNumberSequentialDistance state.receivedReliableSeqNum msg.sendReliableSeqNum = 0)) ∨
       (msg.reliability = .reliable ∧ ¬1 < msg.numChunks.toNat ∧
          sequenceNumberSequentialDistance state.receivedReliableSeqNum msg.sendReliableSeqNum = 1))) ∨
    (∃ head rest, state.staging = head :: rest ∧ head.reliability = .reliable ∧
      1 < head.numChunks.toNat ∧ head.numChunks.toNat ≤ state.staging.length ∧
      sequenceNumberSequentialDistance state.receivedReliableSeqNum head.sendReliableSeqNum = 1 ∧
      chunksReady state.staging head.numChunks.toNat = true ∧
      (msg,next) = assembleChunks channel state head.numChunks.toNat) := by
  unfold ChannelState.nextReady at ready
  split at ready
  · cases ready
  · rename_i head rest queue
    dsimp only at ready
    split at ready
    · rename_i reliable
      split at ready
      · cases ready
      · rename_i consecutive
        split at ready
        · rename_i chunked
          split at ready
          · cases ready
          · rename_i enough
            split at ready
            · rename_i complete
              exact .inr ⟨head,rest,queue,reliable,chunked,by omega,by simpa using consecutive,complete,
                (Option.some.inj ready).symm⟩
            · cases ready
        · rename_i single
          cases Option.some.inj ready
          exact .inl ⟨rest,queue,rfl,.inr ⟨reliable,single,by simpa using consecutive⟩⟩
    · rename_i unreliable
      split at ready
      · cases ready
      · rename_i free
        cases Option.some.inj ready
        refine .inl ⟨rest,queue,rfl,.inl ⟨unreliable,?_⟩⟩
        by_cases fresh : state.receivedReliableSeqNum = sequenceNumberMax
        · exact .inl fresh
        · exact .inr (by simpa [fresh] using free)

theorem nextReady_single (queue : state.staging = head :: rest) (reliable : head.reliability = .reliable)
    (consecutive : sequenceNumberSequentialDistance state.receivedReliableSeqNum head.sendReliableSeqNum = 1)
    (single : ¬1 < head.numChunks.toNat) :
    state.nextReady channel = some (deliverHead state head rest) := by
  simp [ChannelState.nextReady,queue,reliable,consecutive,single]

theorem chunksReady_short (short : staging.length < numChunks) : chunksReady staging numChunks = false := by
  simp [chunksReady,short]

theorem nextReady_chunks (queue : state.staging = head :: rest) (reliable : head.reliability = .reliable)
    (consecutive : sequenceNumberSequentialDistance state.receivedReliableSeqNum head.sendReliableSeqNum = 1)
    (chunked : 1 < head.numChunks.toNat) (ready : chunksReady state.staging head.numChunks.toNat = true) :
    state.nextReady channel = some (assembleChunks channel state head.numChunks.toNat) := by
  have enough : ¬state.staging.length < head.numChunks.toNat := by
    intro short
    rw [chunksReady_short short] at ready
    cases ready
  rw [queue] at ready enough
  unfold ChannelState.nextReady
  rw [queue]
  simp only [reliable,consecutive,chunked,ready,enough,if_true,if_false,not_true_eq_false,ne_eq]

theorem chunksReady_append (ready : chunksReady staging numChunks = true) (more : List MessageData) :
    chunksReady (staging ++ more) numChunks = true := by
  unfold chunksReady at ready ⊢
  split at ready
  · cases ready
  · rename_i enough
    rw [if_neg (by simp; omega)]
    cases staging with
    | nil => cases ready
    | cons first rest =>
      simp only [List.length_cons,Nat.not_lt] at enough
      simpa [List.take_append_of_le_length (show numChunks-1 ≤ rest.length by omega)] using ready

-- A delivery looks at the frames it takes and at nothing behind them.
theorem nextReady_push (ready : state.nextReady channel = some (msg,next)) (more : List MessageData) :
    (state.push more).nextReady channel = some (msg,next.push more) := by
  rcases nextReady_cases ready with ⟨rest,queue,rfl,gate⟩ | ⟨head,rest,queue,reliable,chunked,enough,consecutive,complete,taken⟩
  · rcases gate with ⟨unreliable,free⟩ | ⟨reliable,single,consecutive⟩
    · rcases free with fresh | same
      · simp [ChannelState.nextReady,queue,unreliable,fresh,deliverHead,ChannelState.push]
      · simp [ChannelState.nextReady,queue,unreliable,same,deliverHead,ChannelState.push]
    · simp [ChannelState.nextReady,queue,reliable,consecutive,single,deliverHead,ChannelState.push]
  · have longer : ¬(state.staging ++ more).length < head.numChunks.toNat := by simp; omega
    have front : chunksReady (state.staging ++ more) head.numChunks.toNat = true :=
      chunksReady_append complete more
    cases taken
    rw [queue,List.cons_append] at longer front
    simp [ChannelState.nextReady,queue,reliable,consecutive,chunked,assembleChunks,
      ChannelState.push] at longer front ⊢
    rw [queue] at enough
    simp only [List.length_cons] at enough
    refine ⟨by omega,front,?_⟩
    obtain ⟨n,counted⟩ := Nat.exists_eq_succ_of_ne_zero (n := head.numChunks.toNat) (by omega)
    rw [counted]
    simp [List.take_append_of_le_length (show n ≤ rest.length by omega),
      List.drop_append_of_le_length (show n ≤ rest.length by omega)]

theorem nextReady_size (ready : state.nextReady channel = some (msg,next)) :
    next.staging.length < state.staging.length := by
  rcases nextReady_cases ready with ⟨rest,queue,rfl,_⟩ | ⟨head,rest,queue,_,chunked,enough,_,_,taken⟩
  · simp [deliverHead,queue]
  · cases taken
    simp only [List.length_drop]
    omega

end Queue

-- Repeated `next_ready` on one channel, as the machine of the queue library.
def channelQueue (channel : UInt8) : FifoMachine ChannelState MessageData MessageData where
  push := ChannelState.push
  next := ChannelState.nextReady channel
  size state := state.staging.length
  push_nil := push_nil
  push_push := push_push
  next_push := nextReady_push
  next_size := nextReady_size

-- `Drain`: the channels in numerical order, each until it has nothing ready.
def Reassembler.drainFrom (reassembler : Reassembler) :
    List UInt8 → List (UInt8 × MessageData) × Reassembler
  | [] => ([],reassembler)
  | channel :: channels =>
    let (msgs,state) := (channelQueue channel).drain (reassembler channel)
    let (others,final) := drainFrom (reassembler.set channel state) channels
    (msgs.map (fun msg => (channel,msg)) ++ others,final)

def channels : List UInt8 := [0,1,2,3]

def Reassembler.drain (reassembler : Reassembler) : List (UInt8 × MessageData) × Reassembler :=
  reassembler.drainFrom channels

end NwNetwork.Carrier
