import NwNetwork.CarrierDelivery
import NwNetwork.CarrierDatagram
import Mathlib.Data.List.Nodup

namespace NwNetwork.Carrier

-- A message as the sender cuts it up: the first chunk counts all of them, each
-- later chunk the ones from it on. A message that fits is its only chunk.
structure IsMessage (channel : UInt8) (chunks : List MessageData) : Prop where
  nonempty : chunks ≠ []
  short : chunks.length ≤ Mtu.maxNumChunks
  ofChannel : ∀ chunk ∈ chunks, chunk.channel = channel
  reliable : ∀ chunk ∈ chunks, chunk.reliability = .reliable
  counted : chunks.map (·.numChunks) =
    (List.range chunks.length).map (fun i => BitVec.ofNat 16 (chunks.length - i))

-- The reliable frames of one channel, message by message, numbered from zero on.
structure ReliableStream (channel : UInt8) where
  real : channel.toNat < maxChannels
  messages : List (List MessageData)
  nonempty : messages ≠ []
  wellFormed : ∀ chunks ∈ messages, IsMessage channel chunks
  numbered : messages.flatten.map (·.sendReliableSeqNum) =
    (List.range messages.flatten.length).map (BitVec.ofNat 16)
  bounded : messages.flatten.length ≤ 2^16

def lastNumber (last : SequenceNumber) (frames : List MessageData) : SequenceNumber :=
  (frames.getLast?.map (·.sendReliableSeqNum)).getD last

def content (msg : MessageData) : SequenceNumber × WireReader.Bytes := (msg.sendReliableSeqNum,msg.data)

def messageContent (chunks : List MessageData) : SequenceNumber × WireReader.Bytes :=
  (lastNumber 0 chunks,chunks.flatMap (·.data))

def reliableContents (msgs : List MessageData) : List (SequenceNumber × WireReader.Bytes) :=
  (msgs.filter (fun msg => decide (msg.reliability = .reliable))).map content

namespace ReliableStream

def frames (stream : ReliableStream channel) : List MessageData := stream.messages.flatten

def contents (stream : ReliableStream channel) : List (SequenceNumber × WireReader.Bytes) :=
  stream.messages.map messageContent

end ReliableStream

-- The frames a head-only gate lets through: each message in one unbroken run of
-- its chunks, in the order of the messages, and between two messages only
-- unreliable frames that name the message before them as their predecessor.
inductive InTurn : SequenceNumber → List (List MessageData) → List MessageData → SequenceNumber → Prop where
  | done : InTurn last [] [] last
  | unreliable : frame.reliability = .unreliable →
      (last = sequenceNumberMax ∨ frame.sendReliableSeqNum = last) →
      InTurn last messages frames final → InTurn last messages (frame :: frames) final
  | message : InTurn (lastNumber last chunks) messages frames final →
      InTurn last (chunks :: messages) (chunks ++ frames) final

-- After 65536 frames the last number is the one that stands for "nothing
-- delivered yet", so a repeated first message would be taken for a new one.
def ReliableStream.StartsOver (stream : ReliableStream channel) (frames : List MessageData) : Prop :=
  stream.frames.length = 2^16 ∧ ∃ first ∈ stream.messages.head?, ∃ others more,
    frames = others ++ first ++ more ∧ ∀ other ∈ others, other.reliability = .unreliable

def ReliableStream.ArrivesInTurn (stream : ReliableStream channel) (frames : List MessageData) : Prop :=
  ∃ pre post last, frames = pre ++ post ∧ InTurn sequenceNumberMax stream.messages pre last ∧
    ¬stream.StartsOver post

section Chunks

theorem lastNumber_append (last : SequenceNumber) (first second : List MessageData) :
    lastNumber last (first ++ second) = lastNumber (lastNumber last first) second := by
  unfold lastNumber
  rw [List.getLast?_append]
  cases second.getLast? <;> rfl

theorem lastNumber_cons (last : SequenceNumber) (frame : MessageData) (frames : List MessageData) :
    lastNumber last (frame :: frames) = lastNumber frame.sendReliableSeqNum frames := by
  simpa [lastNumber] using lastNumber_append last [frame] frames

theorem chunksFollow_append (last : SequenceNumber) (first second : List MessageData) :
    chunksFollow last (first ++ second) = true ↔
      chunksFollow last first = true ∧ chunksFollow (lastNumber last first) second = true := by
  induction first generalizing last with
  | nil => simp [chunksFollow,lastNumber]
  | cons frame first ih =>
    rw [List.cons_append,chunksFollow_cons,chunksFollow_cons,ih,lastNumber_cons]
    simp only [and_assoc]

-- Two runs from one number through frames that their numbers tell apart.
theorem follow_unique {frames : List MessageData}
    (apart : ∀ a ∈ frames, ∀ b ∈ frames, a.sendReliableSeqNum = b.sendReliableSeqNum → a = b)
    (left : chunksFollow last xs = true) (right : chunksFollow last ys = true)
    (same : xs.length = ys.length) (inX : ∀ x ∈ xs, x ∈ frames) (inY : ∀ y ∈ ys, y ∈ frames) : xs = ys := by
  induction xs generalizing last ys with
  | nil => exact (List.length_eq_zero_iff.mp same.symm).symm
  | cons x xs ih =>
    cases ys with
    | nil => cases same
    | cons y ys =>
      obtain ⟨_,numberX,restX⟩ := (chunksFollow_cons _ _ _).mp left
      obtain ⟨_,numberY,restY⟩ := (chunksFollow_cons _ _ _).mp right
      have head : x = y := apart x (inX x List.mem_cons_self) y (inY y List.mem_cons_self)
        (numberX.trans numberY.symm)
      subst head
      rw [ih restX restY (Nat.succ.inj same) (fun a present => inX a (List.mem_cons_of_mem _ present))
        (fun a present => inY a (List.mem_cons_of_mem _ present))]

theorem follow_reliable (follow : chunksFollow last frames = true) :
    ∀ frame ∈ frames, frame.reliability = .reliable := by
  induction frames generalizing last with
  | nil => exact fun _ present => absurd present List.not_mem_nil
  | cons first frames ih =>
    obtain ⟨reliable,_,rest⟩ := (chunksFollow_cons _ _ _).mp follow
    intro frame present
    rcases List.mem_cons.mp present with rfl | later
    · exact reliable
    · exact ih rest frame later

theorem follow_of_numbers (start : Nat) (reliable : ∀ frame ∈ frames, frame.reliability = .reliable)
    (numbers : frames.map (·.sendReliableSeqNum) =
      (List.range' start frames.length).map (BitVec.ofNat 16)) :
    chunksFollow (BitVec.ofNat 16 start - 1) frames = true := by
  induction frames generalizing start with
  | nil => rfl
  | cons frame frames ih =>
    simp only [List.map_cons,List.length_cons,List.range'_succ,List.cons.injEq] at numbers
    have rest := ih (start+1) (fun other present => reliable other (List.mem_cons_of_mem _ present)) numbers.2
    have step : BitVec.ofNat 16 (start+1) - 1 = frame.sendReliableSeqNum := by
      rw [numbers.1,BitVec.ofNat_add]
      exact BitVec.add_sub_cancel _ _
    rw [step] at rest
    exact (chunksFollow_cons _ _ _).mpr ⟨reliable frame List.mem_cons_self,
      by rw [numbers.1,BitVec.sub_add_cancel],rest⟩

end Chunks

namespace ReliableStream
variable (stream : ReliableStream channel)

theorem frames_reliable : ∀ frame ∈ stream.frames, frame.reliability = .reliable := by
  intro frame present
  obtain ⟨chunks,among,inside⟩ := List.mem_flatten.mp present
  exact (stream.wellFormed chunks among).reliable frame inside

theorem frames_follow : chunksFollow sequenceNumberMax stream.frames = true := by
  have follow := follow_of_numbers 0 stream.frames_reliable
    (by rw [List.range_eq_range'.symm]; exact stream.numbered)
  exact follow

theorem frames_apart : ∀ a ∈ stream.frames, ∀ b ∈ stream.frames,
    a.sendReliableSeqNum = b.sendReliableSeqNum → a = b := by
  have distinct : (stream.frames.map (·.sendReliableSeqNum)).Nodup := by
    unfold frames
    rw [stream.numbered]
    refine List.Nodup.map_on ?_ List.nodup_range
    intro i first j second same
    have bound := stream.bounded
    have values := congrArg BitVec.toNat same
    simp only [List.mem_range,BitVec.toNat_ofNat] at first second values
    omega
  intro a first b second same
  exact List.inj_on_of_nodup_map distinct first second same

end ReliableStream

section Delivery
variable {channel : UInt8} {state next : ChannelState}

theorem message_count (message : IsMessage channel (head :: tail)) :
    head.numChunks.toNat = (head :: tail).length := by
  have first := congrArg List.head? message.counted
  have short := message.short
  simp only [List.map_cons,List.head?_cons,List.length_cons,List.range_succ_eq_map,Nat.sub_zero,
    Option.some.injEq] at first
  rw [first,BitVec.toNat_ofNat]
  simp only [Mtu.maxNumChunks,Mtu.sequenceNumberHalfSpan,List.length_cons] at short ⊢
  omega

theorem lastNumber_nonempty (last other : SequenceNumber) (nonempty : frames ≠ []) :
    lastNumber last frames = lastNumber other frames := by
  obtain ⟨front,final,rfl⟩ := List.eq_nil_or_concat frames |>.resolve_left nonempty
  simp [lastNumber]

-- A complete run of chunks at the head of the queue is delivered at once.
theorem nextReady_run (channel : UInt8) (count : head.numChunks.toNat = (head :: tail).length)
    (follow : chunksFollow state.receivedReliableSeqNum (head :: tail) = true)
    (queue : state.staging = head :: tail ++ more) :
    ∃ msg next, state.nextReady channel = some (msg,next) ∧ msg.reliability = .reliable ∧
      content msg = messageContent (head :: tail) ∧ next.staging = more ∧
      next.receivedReliableSeqNum = lastNumber state.receivedReliableSeqNum (head :: tail) := by
  obtain ⟨reliable,number,rest⟩ := (chunksFollow_cons _ _ _).mp follow
  have consecutive := (distance_one_iff _ _).mpr number
  by_cases single : tail = []
  · subst single
    rw [List.length_singleton] at count
    refine ⟨head,(deliverHead state head more).2,?_,reliable,?_,rfl,?_⟩
    · exact nextReady_single queue reliable consecutive (by omega)
    · simp [content,messageContent,lastNumber]
    · simp [deliverHead,reliable,lastNumber]
  · have longer : 1 < (head :: tail).length := by
      have positive := List.length_pos_iff.mpr single
      simpa using positive
    have ready : chunksReady (head :: tail ++ more) (head :: tail).length = true := by
      simp [chunksReady,reliable,rest]
    have front : state.staging.take (head :: tail).length = head :: tail := by
      rw [queue,List.take_left]
    have behind : state.staging.drop (head :: tail).length = more := by
      rw [queue,List.drop_left]
    rw [←queue,←count] at ready
    refine ⟨_,_,nextReady_chunks queue reliable consecutive (by omega) ready,rfl,?_,?_,?_⟩
    · rw [count]
      simp only [front]
      rfl
    · rw [count]
      exact behind
    · rw [count]
      simp only [front]
      exact lastNumber_nonempty 0 _ (List.cons_ne_nil _ _)

theorem nextReady_message (message : IsMessage channel chunks)
    (follow : chunksFollow state.receivedReliableSeqNum chunks = true)
    (queue : state.staging = chunks ++ more) :
    ∃ msg next, state.nextReady channel = some (msg,next) ∧ msg.reliability = .reliable ∧
      content msg = messageContent chunks ∧ next.staging = more ∧
      next.receivedReliableSeqNum = lastNumber state.receivedReliableSeqNum chunks := by
  cases chunks with
  | nil => exact absurd rfl message.nonempty
  | cons head tail => exact nextReady_run channel (message_count message) follow queue

theorem nextReady_free (channel : UInt8) (unreliable : head.reliability = .unreliable)
    (free : state.receivedReliableSeqNum = sequenceNumberMax ∨ head.sendReliableSeqNum = state.receivedReliableSeqNum)
    (queue : state.staging = head :: more) :
    state.nextReady channel = some (deliverHead state head more) := by
  rcases free with fresh | same
  · simp [ChannelState.nextReady,queue,unreliable,fresh]
  · simp [ChannelState.nextReady,queue,unreliable,(distance_zero_iff _ _).mpr same]

theorem reliableContents_reliable (reliable : msg.reliability = .reliable) (msgs : List MessageData) :
    reliableContents (msg :: msgs) = content msg :: reliableContents msgs := by
  simp [reliableContents,reliable]

theorem reliableContents_unreliable (unreliable : msg.reliability = .unreliable) (msgs : List MessageData) :
    reliableContents (msg :: msgs) = reliableContents msgs := by
  simp [reliableContents,unreliable]

-- Frames in turn pass the gate: the messages come out, and the queue is left
-- with the frames behind them.
theorem inTurn_delivers (channel : UInt8) (turn : InTurn last messages pre final)
    (formed : ∀ chunks ∈ messages, IsMessage channel chunks) (follow : chunksFollow last messages.flatten = true)
    (at_last : state.receivedReliableSeqNum = last) (queue : state.staging = pre ++ post) :
    ∃ next : ChannelState, next.staging = post ∧ next.receivedReliableSeqNum = final ∧
      reliableContents ((channelQueue channel).drain state).1 =
        messages.map messageContent ++ reliableContents ((channelQueue channel).drain next).1 := by
  induction turn generalizing state with
  | done => exact ⟨state,queue,at_last,rfl⟩
  | unreliable unreliable free rest ih =>
    subst at_last
    rename_i messages frames final frame
    have ready := nextReady_free channel unreliable free queue
    have stays : (deliverHead state frame (frames ++ post)).2.receivedReliableSeqNum =
        state.receivedReliableSeqNum := by simp [deliverHead,unreliable]
    obtain ⟨next,left,reached,contents⟩ := ih formed follow stays rfl
    refine ⟨next,left,reached,?_⟩
    rw [(channelQueue channel).drain_step ready,←contents]
    exact reliableContents_unreliable unreliable _
  | message rest ih =>
    subst at_last
    rename_i chunks messages frames final
    rw [List.append_assoc] at queue
    obtain ⟨first,others⟩ := (chunksFollow_append _ _ _).mp follow
    obtain ⟨msg,middle,ready,reliable,same,left,reached⟩ :=
      nextReady_message (formed chunks List.mem_cons_self) first queue
    obtain ⟨next,left,reached,contents⟩ :=
      ih (fun other present => formed other (List.mem_cons_of_mem _ present)) others reached left
    refine ⟨next,left,reached,?_⟩
    rw [(channelQueue channel).drain_step ready]
    simp only [reliableContents_reliable reliable,contents,same,List.map_cons,List.cons_append]

-- Whether something is ready does not depend on the unreliable counter.
theorem stuck_same {other : ChannelState} (stuck : state.nextReady channel = none) (queue : other.staging = state.staging)
    (rel : other.receivedReliableSeqNum = state.receivedReliableSeqNum) : other.nextReady channel = none := by
  cases ready : other.nextReady channel with
  | none => rfl
  | some result =>
    exfalso
    rcases nextReady_cases ready with ⟨more,front,_,gate⟩ | ⟨head,more,front,reliable,chunked,_,consecutive,complete,_⟩
    · rw [queue] at front
      rcases gate with ⟨unreliable,free⟩ | ⟨reliable,single,consecutive⟩
      · rw [rel] at free
        rw [nextReady_free channel unreliable (free.imp_right (distance_zero_iff _ _).mp) front] at stuck
        cases stuck
      · rw [rel] at consecutive
        rw [nextReady_single front reliable consecutive single] at stuck
        cases stuck
    · rw [queue] at front complete
      rw [rel] at consecutive
      rw [nextReady_chunks front reliable consecutive chunked complete] at stuck
      cases stuck

-- The next reliable frame is the first one of the next message.
theorem next_frame {frames : List MessageData}
    (apart : ∀ a ∈ frames, ∀ b ∈ frames, a.sendReliableSeqNum = b.sendReliableSeqNum → a = b)
    (message : IsMessage channel chunks) (follow : chunksFollow last chunks = true)
    (within : ∀ frame ∈ chunks, frame ∈ frames) (present : head ∈ frames)
    (number : head.sendReliableSeqNum = last + 1) :
    ∃ tail, chunks = head :: tail ∧ head.numChunks.toNat = chunks.length ∧
      chunksFollow head.sendReliableSeqNum tail = true := by
  cases chunks with
  | nil => exact absurd rfl message.nonempty
  | cons first tail =>
    obtain ⟨_,numbered,rest⟩ := (chunksFollow_cons _ _ _).mp follow
    have same : head = first := apart head present first (within first List.mem_cons_self)
      (number.trans numbered.symm)
    subst same
    exact ⟨tail,rfl,message_count message,rest⟩

theorem run_taken {frames : List MessageData}
    (apart : ∀ a ∈ frames, ∀ b ∈ frames, a.sendReliableSeqNum = b.sendReliableSeqNum → a = b)
    (follow : chunksFollow last (head :: tail) = true) (within : ∀ frame ∈ head :: tail, frame ∈ frames)
    (ours : ∀ frame ∈ state.staging, frame.reliability = .reliable → frame ∈ frames)
    (queue : state.staging = head :: more)
    (complete : chunksReady state.staging (head :: tail).length = true) :
    state.staging.take (head :: tail).length = head :: tail := by
  have enough : ¬state.staging.length < (head :: tail).length := by
    intro short
    rw [chunksReady_short short] at complete
    cases complete
  rw [queue] at complete enough ours ⊢
  simp only [List.length_cons,Nat.add_lt_add_iff_right,Nat.not_lt] at enough
  have behind : chunksFollow head.sendReliableSeqNum (more.take tail.length) = true := by
    simp [chunksReady,Nat.not_lt.mpr enough] at complete
    exact complete.2
  have same : more.take tail.length = tail := by
    refine follow_unique apart behind ((chunksFollow_cons _ _ _).mp follow).2.2 (by simp [enough]) ?_ ?_
    · intro frame present
      exact ours frame (List.mem_cons_of_mem _ (List.mem_of_mem_take present))
        (follow_reliable behind frame present)
    · exact fun frame present => within frame (List.mem_cons_of_mem _ present)
  rw [List.length_cons,List.take_succ_cons,same]

-- Whatever a queue delivers, it delivers in turn: it stops for good at a frame
-- that the gate holds back, or all messages have come out.
theorem drain_inTurn (channel : UInt8) (state : ChannelState) {frames : List MessageData}
    (apart : ∀ a ∈ frames, ∀ b ∈ frames, a.sendReliableSeqNum = b.sendReliableSeqNum → a = b)
    (formed : ∀ chunks ∈ messages, IsMessage channel chunks)
    (within : ∀ frame ∈ messages.flatten, frame ∈ frames)
    (follow : chunksFollow state.receivedReliableSeqNum messages.flatten = true)
    (ours : ∀ frame ∈ state.staging, frame.reliability = .reliable → frame ∈ frames) :
    ∃ taken rest pre post final, messages = taken ++ rest ∧ state.staging = pre ++ post ∧
      InTurn state.receivedReliableSeqNum taken pre final ∧
      (rest = [] ∨ ∀ stuck : ChannelState, stuck.staging = post → stuck.receivedReliableSeqNum = final →
        stuck.nextReady channel = none) := by
  induction size : state.staging.length using Nat.strongRecOn generalizing state messages with
  | ind size ih =>
    subst size
    cases ready : state.nextReady channel with
    | none =>
      refine ⟨[],messages,[],state.staging,_,rfl,rfl,.done,.inr ?_⟩
      intro other queue rel
      exact stuck_same ready queue rel
    | some result =>
      obtain ⟨msg,next⟩ := result
      cases messages with
      | nil => exact ⟨[],[],[],state.staging,_,rfl,rfl,.done,.inl rfl⟩
      | cons chunks messages =>
        have message := formed chunks List.mem_cons_self
        obtain ⟨first,others⟩ := (chunksFollow_append _ _ _).mp follow
        have inside : ∀ frame ∈ chunks, frame ∈ frames :=
          fun frame present => within frame (List.mem_append_left _ present)
        have smaller := nextReady_size ready
        -- After the message the rest of the queue meets the rest of the messages.
        have after : ∀ more : List MessageData, state.staging = chunks ++ more → next.staging = more →
            next.receivedReliableSeqNum = lastNumber state.receivedReliableSeqNum chunks →
            ∃ taken rest pre post final, chunks :: messages = taken ++ rest ∧ state.staging = pre ++ post ∧
              InTurn state.receivedReliableSeqNum taken pre final ∧
              (rest = [] ∨ ∀ stuck : ChannelState, stuck.staging = post →
                stuck.receivedReliableSeqNum = final → stuck.nextReady channel = none) := by
          intro more queue left reached
          obtain ⟨taken,rest,pre,post,final,split,parts,turn,ends⟩ :=
            ih _ smaller next (fun other present => formed other (List.mem_cons_of_mem _ present))
              (fun frame present => within frame (List.mem_append_right _ present))
              (by rw [reached]; exact others)
              (fun frame present => ours frame (by rw [queue]; rw [left] at present; exact List.mem_append_right _ present))
              rfl
          rw [reached] at turn
          refine ⟨chunks :: taken,rest,chunks ++ pre,post,final,by rw [split,List.cons_append],?_,.message turn,ends⟩
          rw [queue,←left,parts,List.append_assoc]
        rcases nextReady_cases ready with ⟨more,queue,rfl,gate⟩ | ⟨head,more,queue,reliable,chunked,enough,consecutive,complete,out⟩
        · rcases gate with ⟨unreliable,free⟩ | ⟨reliable,single,consecutive⟩
          · have stays : (deliverHead state msg more).2.receivedReliableSeqNum = state.receivedReliableSeqNum := by
              simp [deliverHead,unreliable]
            obtain ⟨taken,rest,pre,post,final,split,parts,turn,ends⟩ :=
              ih _ smaller _ formed within (by rw [stays]; exact follow)
                (fun frame present => ours frame (by rw [queue]; exact List.mem_cons_of_mem _ present)) rfl
            rw [stays] at turn
            refine ⟨taken,rest,msg :: pre,post,final,split,?_,.unreliable unreliable ?_ turn,ends⟩
            · rw [queue,List.cons_append,←parts]
              rfl
            · exact free.imp_right (distance_zero_iff _ _).mp
          · have present : msg ∈ frames := ours msg (by rw [queue]; exact List.mem_cons_self) reliable
            obtain ⟨tail,rfl,count,_⟩ := next_frame apart message first inside present
              ((distance_one_iff _ _).mp consecutive)
            have alone : tail = [] := by
              rw [count,List.length_cons] at single
              exact List.length_eq_zero_iff.mp (by omega)
            subst alone
            exact after more queue rfl (by simp [deliverHead,reliable,lastNumber])
        · have present : head ∈ frames := ours head (by rw [queue]; exact List.mem_cons_self) reliable
          obtain ⟨tail,rfl,count,rest⟩ := next_frame apart message first inside present
            ((distance_one_iff _ _).mp consecutive)
          have run := run_taken apart first inside ours queue (count ▸ complete)
          rw [←count] at run
          have queue' : state.staging = (head :: tail) ++ state.staging.drop head.numChunks.toNat := by
            rw [←run,List.take_append_drop]
          cases out
          apply after _ queue' rfl
          simp only [run]
          exact lastNumber_nonempty 0 _ (List.cons_ne_nil _ _)

theorem inTurn_final (turn : InTurn last messages pre final) : final = lastNumber last messages.flatten := by
  induction turn with
  | done => rfl
  | unreliable _ _ _ ih => exact ih
  | message _ ih => rw [ih,List.flatten_cons,lastNumber_append]

theorem inTurn_first (turn : InTurn last (first :: messages) pre final) :
    ∃ others more, pre = others ++ first ++ more ∧ ∀ other ∈ others, other.reliability = .unreliable := by
  generalize among : first :: messages = all at turn
  induction turn with
  | done => cases among
  | unreliable unreliable free rest ih =>
    rename_i frame
    obtain ⟨others,more,split,kinds⟩ := ih among
    refine ⟨frame :: others,more,by rw [split]; rfl,?_⟩
    intro other present
    rcases List.mem_cons.mp present with rfl | later
    · exact unreliable
    · exact kinds other later
  | message =>
    cases among
    exact ⟨[],_,rfl,by simp⟩

theorem unreliable_inTurn (kinds : ∀ other ∈ others, other.reliability = .unreliable)
    (turn : InTurn sequenceNumberMax messages frames final) :
    InTurn sequenceNumberMax messages (others ++ frames) final := by
  induction others with
  | nil => exact turn
  | cons other others ih =>
    exact .unreliable (kinds other List.mem_cons_self) (.inl rfl)
      (ih fun later present => kinds later (List.mem_cons_of_mem _ present))

-- Without a frame that carries the next number nothing reliable comes out.
theorem drain_unreliable {frames : List MessageData}
    (nobody : ∀ frame ∈ frames, frame.sendReliableSeqNum ≠ state.receivedReliableSeqNum + 1)
    (ours : ∀ frame ∈ state.staging, frame.reliability = .reliable → frame ∈ frames) :
    reliableContents ((channelQueue channel).drain state).1 = [] := by
  induction size : state.staging.length using Nat.strongRecOn generalizing state with
  | ind size ih =>
    subst size
    cases ready : state.nextReady channel with
    | none => rw [(channelQueue channel).drain_stuck ready]; rfl
    | some result =>
      obtain ⟨msg,next⟩ := result
      rw [(channelQueue channel).drain_step ready]
      have smaller := nextReady_size ready
      rcases nextReady_cases ready with ⟨more,queue,rfl,gate⟩ | ⟨head,more,queue,reliable,_,_,consecutive,_,_⟩
      · rcases gate with ⟨unreliable,_⟩ | ⟨reliable,_,consecutive⟩
        · refine (reliableContents_unreliable unreliable _).trans ?_
          refine ih _ smaller ?_ ?_ rfl
          · simpa [deliverHead,unreliable] using nobody
          · exact fun frame present => ours frame (by rw [queue]; exact List.mem_cons_of_mem _ present)
        · exact absurd ((distance_one_iff _ _).mp consecutive)
            (nobody msg (ours msg (by rw [queue]; exact List.mem_cons_self) reliable))
      · exact absurd ((distance_one_iff _ _).mp consecutive)
          (nobody head (ours head (by rw [queue]; exact List.mem_cons_self) reliable))

end Delivery

namespace ReliableStream
variable (stream : ReliableStream channel)

theorem frames_last : lastNumber sequenceNumberMax stream.frames = BitVec.ofNat 16 (stream.frames.length - 1) := by
  have numbers := congrArg List.getLast? stream.numbered
  have nonempty : stream.frames ≠ [] := by
    intro empty
    obtain ⟨first,rest,split⟩ := List.exists_cons_of_ne_nil stream.nonempty
    have message := stream.wellFormed first (by rw [split]; exact List.mem_cons_self)
    rw [frames,split,List.flatten_cons] at empty
    exact message.nonempty (List.append_eq_nil_iff.mp empty).1
  obtain ⟨count,size⟩ := Nat.exists_eq_succ_of_ne_zero (mt List.length_eq_zero_iff.mp nonempty)
  rw [List.getLast?_map] at numbers
  change Option.map _ stream.frames.getLast? = _ at numbers
  change _ = ((List.range stream.frames.length).map _).getLast? at numbers
  rw [lastNumber,numbers,size,List.range_succ]
  simp

-- What a queue still hands out of the frames behind a complete stream.
theorem behind_complete (at_last : state.receivedReliableSeqNum = lastNumber sequenceNumberMax stream.frames)
    (ours : ∀ frame ∈ state.staging, frame.reliability = .reliable → frame ∈ stream.frames) :
    reliableContents ((channelQueue channel).drain state).1 = [] ↔ ¬stream.StartsOver state.staging := by
  have last := stream.frames_last
  by_cases full : stream.frames.length = 2^16
  · have fresh : state.receivedReliableSeqNum = sequenceNumberMax := by
      rw [at_last,last,full]
      rfl
    have follow : chunksFollow state.receivedReliableSeqNum stream.messages.flatten = true := by
      rw [fresh]
      exact stream.frames_follow
    constructor
    · rintro nothing ⟨_,first,head,others,more,queue,kinds⟩
      obtain ⟨rest,split⟩ : ∃ rest, stream.messages = first :: rest := List.head?_eq_some_iff.mp head
      have turn : InTurn sequenceNumberMax [first] (others ++ first) (lastNumber sequenceNumberMax first) := by
        have one : InTurn sequenceNumberMax [first] (first ++ []) (lastNumber sequenceNumberMax first) :=
          .message .done
        rw [List.append_nil] at one
        exact unreliable_inTurn kinds one
      rw [split,List.flatten_cons,fresh,chunksFollow_append] at follow
      obtain ⟨next,_,_,contents⟩ := inTurn_delivers channel turn
        (by rintro chunks present
            rw [List.mem_singleton.mp present]
            exact stream.wellFormed first (by rw [split]; exact List.mem_cons_self))
        (by simpa using follow.1) fresh queue
      rw [nothing] at contents
      cases contents
    · intro ends
      obtain ⟨taken,rest,pre,post,final,split,parts,turn,stuck⟩ :=
        drain_inTurn channel state stream.frames_apart stream.wellFormed (fun _ present => present) follow ours
      cases taken with
      | nil =>
        rcases stuck with none_left | stuck
        · rw [none_left] at split
          exact absurd split stream.nonempty
        · obtain ⟨next,left,reached,contents⟩ := inTurn_delivers channel turn
            (fun _ present => absurd present List.not_mem_nil) rfl rfl parts
          rw [contents,(channelQueue channel).drain_stuck (stuck next left reached)]
          rfl
      | cons first taken =>
        obtain ⟨others,more,front,kinds⟩ := inTurn_first turn
        refine absurd ⟨full,first,?_,others,more ++ post,?_,kinds⟩ ends
        · rw [split]
          rfl
        · rw [parts,front]
          simp only [List.append_assoc]
  · have nobody : ∀ frame ∈ stream.frames, frame.sendReliableSeqNum ≠ state.receivedReliableSeqNum + 1 := by
      intro frame present number
      have listed : frame.sendReliableSeqNum ∈ stream.frames.map (·.sendReliableSeqNum) :=
        List.mem_map_of_mem present
      have bound := stream.bounded
      have some_frame := List.length_pos_of_mem present
      rw [frames,stream.numbered,number,at_last,last] at listed
      obtain ⟨index,within,same⟩ := List.mem_map.mp listed
      have values := congrArg BitVec.toNat same
      simp only [List.mem_range,BitVec.toNat_add,BitVec.toNat_ofNat,frames] at within values some_frame full
      have one : BitVec.toNat (1 : SequenceNumber) = 1 := rfl
      rw [one] at values
      omega
    exact ⟨fun _ ended => full ended.1,fun _ => drain_unreliable nobody ours⟩

end ReliableStream

def deliveredReliable (channel : UInt8) (arrivals : List Arrival) :
    List (SequenceNumber × WireReader.Bytes) :=
  reliableContents (delivered channel arrivals)

theorem reliable_delivery (stream : ReliableStream channel) (arrivals : List Arrival)
    (ours : ∀ frame ∈ accepted channel arrivals, frame.reliability = .reliable → frame ∈ stream.frames) :
    deliveredReliable channel arrivals = stream.contents ↔ stream.ArrivesInTurn (accepted channel arrivals) := by
  unfold deliveredReliable
  rw [delivered_drain stream.real]
  have queue : (ChannelState.new.push (accepted channel arrivals)).staging = accepted channel arrivals := rfl
  have follow := stream.frames_follow
  constructor
  · intro complete
    obtain ⟨taken,rest,pre,post,final,split,parts,turn,ends⟩ :=
      drain_inTurn channel (ChannelState.new.push (accepted channel arrivals))
        stream.frames_apart stream.wellFormed (fun _ present => present) follow ours
    rw [ReliableStream.frames,split,List.flatten_append] at follow
    obtain ⟨next,left,reached,contents⟩ := inTurn_delivers channel turn
      (fun chunks present => stream.wellFormed chunks (by rw [split]; exact List.mem_append_left _ present))
      ((chunksFollow_append _ _ _).mp follow).1 rfl parts
    rw [complete,ReliableStream.contents,split,List.map_append,List.append_cancel_left_eq] at contents
    have all : rest = [] := by
      rcases ends with none_left | stuck
      · exact none_left
      · rw [(channelQueue channel).drain_stuck (stuck next left reached)] at contents
        exact List.map_eq_nil_iff.mp contents
    subst all
    rw [List.append_nil] at split
    subst split
    rw [inTurn_final turn] at reached
    have ended := (stream.behind_complete reached ?_).mp contents.symm
    · rw [left] at ended
      exact ⟨pre,post,final,parts,turn,ended⟩
    · intro frame present
      apply ours frame
      rw [left] at present
      rw [←queue,parts]
      exact List.mem_append_right _ present
  · rintro ⟨pre,post,final,parts,turn,ended⟩
    obtain ⟨next,left,reached,contents⟩ := inTurn_delivers channel turn stream.wellFormed follow rfl
      (queue.trans parts)
    rw [inTurn_final turn] at reached
    rw [←left] at ended
    have nothing := (stream.behind_complete reached ?_).mpr ended
    · rw [contents,nothing,List.append_nil]
      rfl
    · intro frame present
      apply ours frame
      rw [left] at present
      rw [parts]
      exact List.mem_append_right _ present

def reliableFrame (number numChunks : SequenceNumber) (data : WireReader.Bytes) : MessageData :=
  { MessageData.new with
    reliability := .reliable, numChunks := numChunks, sendReliableSeqNum := number, data := data }

-- A single frame and a message of two chunks, on channel zero.
def twoMessages : ReliableStream 0 where
  real := by decide
  messages := [[reliableFrame 0 1 [7]],[reliableFrame 1 2 [8],reliableFrame 2 1 [9]]]
  nonempty := List.cons_ne_nil _ _
  wellFormed := by
    intro chunks present
    rcases List.mem_cons.mp present with rfl | later
    · exact ⟨List.cons_ne_nil _ _,by decide,by decide,by decide,by decide⟩
    · rw [List.mem_singleton.mp later]
      exact ⟨List.cons_ne_nil _ _,by decide,by decide,by decide,by decide⟩
  numbered := by decide
  bounded := by decide

theorem reliable_delivery_twoMessages :
    let arrivals : List Arrival := twoMessages.frames.map .accept
    (∀ frame ∈ accepted 0 arrivals, frame.reliability = .reliable → frame ∈ twoMessages.frames) ∧
    (deliveredReliable 0 arrivals = twoMessages.contents ↔
      twoMessages.ArrivesInTurn (accepted 0 arrivals)) := by
  have ours : ∀ frame ∈ accepted 0 (twoMessages.frames.map .accept),
      frame.reliability = .reliable → frame ∈ twoMessages.frames := by decide
  exact ⟨ours,reliable_delivery twoMessages _ ours⟩

-- The second message arrives before the first: it stays at the head of the
-- queue, and the first never gets past it.
theorem early_frame_blocks_channel :
    ¬∀ (stream : ReliableStream 0) (arrivals : List Arrival),
      (∀ frame ∈ accepted 0 arrivals, frame.reliability = .reliable → frame ∈ stream.frames) →
      (∀ frame ∈ stream.frames, frame ∈ accepted 0 arrivals) →
      deliveredReliable 0 arrivals = stream.contents := by
  intro always
  have complete := always twoMessages
    [.accept (reliableFrame 1 2 [8]),.accept (reliableFrame 2 1 [9]),.accept (reliableFrame 0 1 [7])]
    (by decide) (by decide)
  exact absurd complete (by decide)

end NwNetwork.Carrier
