import NwNetwork.CarrierConnectionState

namespace NwNetwork.Carrier
open WireReader

section Split

theorem splitAtMost_flatten (enough : data.length ≤ fuel) (positive : 0 < size) :
    (splitAtMost size fuel data).flatten = data := by
  induction fuel generalizing data with
  | zero => exact (List.length_eq_zero_iff.mp (Nat.le_zero.mp enough)).symm
  | succ fuel ih =>
    unfold splitAtMost
    split
    · rename_i empty
      exact (List.isEmpty_iff.mp empty).symm
    · have shorter : (data.drop size).length ≤ fuel := by
        rw [List.length_drop]
        omega
      rw [List.flatten_cons,ih shorter,List.take_append_drop]

theorem splitAtMost_size (present : piece ∈ splitAtMost size fuel data) : piece.length ≤ size := by
  induction fuel generalizing data with
  | zero => cases present
  | succ fuel ih =>
    unfold splitAtMost at present
    split at present
    · cases present
    · rcases List.mem_cons.mp present with rfl | later
      · exact List.length_take_le _ _
      · exact ih later

theorem splitAtMost_length (enough : data.length ≤ fuel) (positive : 0 < size) :
    (splitAtMost size fuel data).length = (data.length + (size - 1)) / size := by
  induction fuel generalizing data with
  | zero =>
    rw [Nat.le_zero.mp enough]
    exact (Nat.div_eq_of_lt (by omega)).symm
  | succ fuel ih =>
    unfold splitAtMost
    split
    · rename_i empty
      rw [List.isEmpty_iff.mp empty]
      exact (Nat.div_eq_of_lt (by simp; omega)).symm
    · rename_i some_bytes
      have longer : 0 < data.length := List.length_pos_iff.mpr fun empty => some_bytes (List.isEmpty_iff.mpr empty)
      have shorter : (data.drop size).length ≤ fuel := by
        rw [List.length_drop]
        omega
      rw [List.length_cons,ih shorter,List.length_drop]
      by_cases last : data.length ≤ size
      · have whole : data.length + (size - 1) = (data.length - 1) + size := by omega
        rw [whole,Nat.add_div_right _ positive,Nat.sub_eq_zero_of_le last,Nat.zero_add,
          Nat.div_eq_of_lt (by omega),Nat.div_eq_of_lt (by omega)]
      · have whole : data.length + (size - 1) = (data.length - size + (size - 1)) + size := by omega
        rw [whole,Nat.add_div_right _ positive]

-- The counter of the chunk loop starts at the number of pieces.
theorem chunksOf_length (long : ¬data.length ≤ Mtu.maxMessageDataSize) :
    (chunksOf data).length = Mtu.chunksNeeded data.length := by
  have positive : 0 < Mtu.maxMessageDataSize := by decide
  rw [chunksOf,splitAtMost_length (Nat.le_refl _) positive,Mtu.chunksNeeded,if_neg long]
  have whole : data.length + (Mtu.maxMessageDataSize - 1) = (data.length - 1) + Mtu.maxMessageDataSize := by omega
  rw [whole,Nat.add_div_right _ positive,Nat.add_comm]

end Split

-- The frames that one message becomes: they carry its data in order, the first
-- one counts them, and only a reliable message has more than one.
structure UnitParts (message head : MessageData) (tail : List MessageData) : Prop where
  ofChannel : ∀ frame ∈ head :: tail, frame.channel = message.channel
  data : (head :: tail).flatMap (·.data) = message.data
  small : ∀ frame ∈ head :: tail, frame.data.length ≤ Mtu.maxMessageDataSize
  count : head.numChunks.toNat = (head :: tail).length
  whole : message.data.length ≤ Mtu.maxMessageDataSize → head.reliability = message.reliability ∧ tail = []
  alone : head.reliability = .unreliable → tail = []
  follow : chunksFollow head.sendReliableSeqNum tail = true

def IsUnit (message : MessageData) (frames : List MessageData) : Prop :=
  ∃ head tail, frames = head :: tail ∧ UnitParts message head tail

-- Exactly the messages that do not need too many chunks are queued.
def Accepted (message : MessageData) : Prop := Mtu.chunksNeeded message.data.length ≤ Mtu.maxNumChunks

instance : Decidable (Accepted message) := inferInstanceAs (Decidable (_ ≤ _))

namespace ConnectionState
variable {state after : ConnectionState}

-- Only the counters of the channel and one queue change.
structure Appends (state after : ConnectionState) (priority : Nat) (frames : List MessageData) : Prop where
  queues : after.toSend = state.toSend.set (queueIndex priority) (state.toSend (queueIndex priority) ++ frames)
  others : after = { state with
    sendSeqNum := after.sendSeqNum, sendReliableSeqNum := after.sendReliableSeqNum, toSend := after.toSend }

theorem appends_nil (state : ConnectionState) (priority : Nat) : Appends state state priority [] := by
  refine ⟨?_,rfl⟩
  funext other
  by_cases same : other = queueIndex priority
  · subst same
    rw [PerPriority.set_same,List.append_nil]
  · rw [PerPriority.set_other _ _ same]

theorem appends_trans {middle : ConnectionState} (one : Appends state middle priority first)
    (two : Appends middle after priority second) : Appends state after priority (first ++ second) := by
  refine ⟨?_,?_⟩
  · rw [two.queues,one.queues]
    funext other
    by_cases same : other = queueIndex priority
    · subst same
      simp only [PerPriority.set_same,List.append_assoc]
    · simp only [PerPriority.set_other _ _ same]
  · rw [two.others,one.others]

theorem queueMessageChunk_appends (state : ConnectionState) (message : MessageData) (priority : Nat)
    (numChunks : BitVec 16) :
    ∃ frame, Appends state (state.queueMessageChunk message priority numChunks) priority [frame] ∧
      frame.reliability = message.reliability ∧ frame.channel = message.channel ∧
      frame.data = message.data ∧ frame.numChunks = numChunks ∧
      (message.reliability = .reliable →
        frame.sendReliableSeqNum = state.sendReliableSeqNum message.channel + 1) ∧
      (state.queueMessageChunk message priority numChunks).sendReliableSeqNum message.channel =
        frame.sendReliableSeqNum := by
  refine ⟨_,⟨rfl,rfl⟩,rfl,rfl,rfl,rfl,?_,?_⟩
  · intro reliable
    exact if_pos reliable
  · exact PerChannel.set_same _ _ _

theorem queueChunks_appends (state : ConnectionState) (message : MessageData) (priority : Nat)
    (pieces : List Bytes) (bound : pieces.length ≤ Mtu.maxNumChunks) :
    ∃ frames, Appends state (state.queueChunks message priority pieces.length pieces) priority frames ∧
      frames.map (·.data) = pieces ∧ (∀ frame ∈ frames, frame.channel = message.channel) ∧
      chunksFollow (state.sendReliableSeqNum message.channel) frames = true ∧
      ∀ head ∈ frames.head?, head.numChunks.toNat = frames.length := by
  induction pieces generalizing state with
  | nil => exact ⟨[],appends_nil state priority,rfl,by simp,rfl,by simp⟩
  | cons piece pieces ih =>
    have shorter : pieces.length ≤ Mtu.maxNumChunks := Nat.le_of_succ_le bound
    obtain ⟨frame,one,kind,channel,data,count,number,last⟩ := queueMessageChunk_appends state
      { MessageData.new with
        channel := message.channel, reliability := .reliable
        isConnecting := message.isConnecting, data := piece }
      priority (BitVec.ofNat 16 (piece :: pieces).length)
    obtain ⟨frames,rest,pieces_same,channels,follow,_⟩ := ih _ shorter
    refine ⟨frame :: frames,appends_trans one rest,?_,?_,?_,?_⟩
    · rw [List.map_cons,data,pieces_same]
    · intro other present
      rcases List.mem_cons.mp present with rfl | later
      · exact channel
      · exact channels other later
    · rw [last] at follow
      exact (chunksFollow_cons _ _ _).mpr ⟨kind,number rfl,follow⟩
    · have sizes : frames.length = pieces.length := by rw [←pieces_same,List.length_map]
      intro head first
      cases first
      rw [count,BitVec.toNat_ofNat,List.length_cons,List.length_cons,sizes]
      unfold Mtu.maxNumChunks Mtu.sequenceNumberHalfSpan at bound
      rw [List.length_cons] at bound
      omega

theorem queueMessage_appends (ran : state.queueMessage message priority = some after) :
    (¬Accepted message ∧ after = state) ∨
    (Accepted message ∧ message.channel.toNat < maxChannels ∧
      ∃ frames, IsUnit message frames ∧ Appends state after priority frames) := by
  unfold queueMessage at ran
  split at ran
  · cases ran
  · rename_i real
    split at ran
    · rename_i fits
      have accepted : Accepted message := by
        unfold Accepted Mtu.chunksNeeded
        rw [if_pos fits]
        decide
      cases Option.some.inj ran
      obtain ⟨frame,one,kind,channel,data,count,_,_⟩ := queueMessageChunk_appends state message priority 1
      refine .inr ⟨accepted,Nat.not_le.mp fun far => real ⟨far,accepted⟩,[frame],⟨frame,[],rfl,?_⟩,one⟩
      refine ⟨?_,?_,?_,?_,?_,fun _ => rfl,rfl⟩
      · exact fun other present => (List.mem_singleton.mp present) ▸ channel
      · rw [List.flatMap_singleton,data]
      · exact fun other present => (List.mem_singleton.mp present) ▸ data ▸ fits
      · rw [count]
        rfl
      · exact fun _ => ⟨kind,rfl⟩
    · rename_i long
      split at ran
      · rename_i refused
        exact .inl ⟨Nat.not_le.mpr refused,(Option.some.inj ran).symm⟩
      · rename_i chunked
        have accepted : Accepted message := Nat.not_lt.mp chunked
        cases Option.some.inj ran
        have pieces := chunksOf_length long
        obtain ⟨frames,all,same,channels,follow,count⟩ := queueChunks_appends state message priority
          (chunksOf message.data) (pieces ▸ accepted)
        rw [pieces] at all
        refine .inr ⟨accepted,Nat.not_le.mp fun far => real ⟨far,accepted⟩,frames,?_,all⟩
        have positive : 0 < Mtu.maxMessageDataSize := by decide
        have whole : (chunksOf message.data).flatten = message.data := splitAtMost_flatten (Nat.le_refl _) positive
        cases frames with
        | nil =>
          rw [←same] at whole
          rw [←whole] at long
          exact absurd (Nat.zero_le _) long
        | cons head tail =>
          obtain ⟨kind,_,behind⟩ := (chunksFollow_cons _ _ _).mp follow
          refine ⟨head,tail,rfl,channels,?_,?_,count head rfl,fun short => absurd short long,?_,behind⟩
          · rw [List.flatMap_def,same,whole]
          · intro frame present
            have piece : frame.data ∈ chunksOf message.data := by
              rw [←same]
              exact List.mem_map_of_mem present
            exact splitAtMost_size piece
          · rw [kind]
            exact fun impossible => nomatch impossible

-- When an acknowledgement is due it goes into the first queue, behind what is
-- there.
theorem queueAcks_cases {queued : ConnectionState} (ran : state.queueAcks now = some queued) :
    (state.ackDue now = false ∧ queued = state) ∨
    (state.ackDue now = true ∧ ∃ bytes last history ack,
      writeAckHistory state.receivedDatagramsHistory = some (bytes,last,history) ∧
      ack.reliability = .unreliable ∧ ack.channel = systemChannel ∧ ack.data.length ≤ 68 ∧
      queued = { state with
        receivedDatagramsHistory := history, lastAckedDatagram := queued.lastAckedDatagram
        sendSeqNum := queued.sendSeqNum, sendReliableSeqNum := queued.sendReliableSeqNum
        toSend := state.toSend.set 0 (state.toSend 0 ++ [ack])
        lastAckSendTime := now, receivedSinceLastSend := false }) := by
  unfold queueAcks at ran
  split at ran
  · rename_i due
    obtain ⟨⟨bytes,noted⟩,written,rest⟩ := Option.bind_eq_some_iff.mp ran
    obtain ⟨middle,asked,done⟩ := Option.bind_eq_some_iff.mp rest
    obtain ⟨⟨frame,last,history⟩,made,same⟩ := Option.bind_eq_some_iff.mp written
    cases Option.some.inj same
    cases Option.some.inj done
    have short := writeAckHistory_short made
    have small : (ackMessage state.isConnecting bytes).data.length ≤ 68 := by
      simp only [ackMessage,List.length_append,List.length_singleton]
      omega
    have single : (ackMessage state.isConnecting bytes).data.length ≤ Mtu.maxMessageDataSize :=
      Nat.le_trans small (by decide)
    refine .inr ⟨due,bytes,last,history,?_⟩
    rcases queueMessage_appends asked with ⟨refused,_⟩ | ⟨_,_,frames,⟨head,tail,rfl,parts⟩,appends⟩
    · refine absurd ?_ refused
      unfold Accepted Mtu.chunksNeeded
      rw [if_pos single]
      decide
    · obtain ⟨kind,rfl⟩ := parts.whole single
      have data : head.data = (ackMessage state.isConnecting bytes).data := by
        simpa using parts.data
      refine ⟨head,made,kind,parts.ofChannel head List.mem_cons_self,data ▸ small,?_⟩
      have queues := appends.queues
      have others := appends.others
      dsimp only at others queues ⊢
      rw [others,queues]
      rfl
  · rename_i early
    exact .inl ⟨by simpa using early,(Option.some.inj ran).symm⟩

end ConnectionState
end NwNetwork.Carrier
