import NwNetwork.CarrierSendQueue
import NwNetwork.CarrierReliableDelivery

namespace NwNetwork.Carrier
open WireReader Serialize

-- A message that goes out in numbered frames: it is reliable, or so long that it is
-- cut into chunks, which are.
def Numbered (message : MessageData) : Prop :=
  message.reliability = .reliable ∨ Mtu.maxMessageDataSize < message.data.length

instance : Decidable (Numbered message) := inferInstanceAs (Decidable (_ ∨ _))

-- The frames of one accepted call, with what the call does to the numbers.
structure QueuedFrames (state after : ConnectionState) (message : MessageData) (priority : Nat)
    (frames : List MessageData) : Prop where
  accepted : Accepted message
  unit : IsUnit message frames
  appends : ConnectionState.Appends state after priority frames
  counted : ∀ frame ∈ frames, frame.numChunks ≠ 0
  size : frames.length = Mtu.chunksNeeded message.data.length
  follow : Numbered message → chunksFollow (state.sendReliableSeqNum message.channel) frames = true
  last : Numbered message →
    after.sendReliableSeqNum message.channel = lastNumber (state.sendReliableSeqNum message.channel) frames

section Queue
variable {state after middle : ConnectionState}

theorem appends_unique (one : ConnectionState.Appends state after priority first)
    (other : ConnectionState.Appends state after priority second) : first = second := by
  have same := congrFun (one.queues.symm.trans other.queues) (queueIndex priority)
  rw [PerPriority.set_same,PerPriority.set_same] at same
  exact List.append_cancel_left same

-- The counter of a chunk never reaches zero.
theorem chunk_counted (positive : 0 < count) (small : count ≤ Mtu.maxNumChunks) : BitVec.ofNat 16 count ≠ 0 := by
  intro zero
  have value := congrArg BitVec.toNat zero
  simp only [Mtu.maxNumChunks,Mtu.sequenceNumberHalfSpan] at small
  rw [BitVec.toNat_ofNat,Nat.mod_eq_of_lt (by omega)] at value
  exact Nat.ne_of_gt positive value

theorem queueChunks_frames (state : ConnectionState) (message : MessageData) (priority : Nat)
    (pieces : List Bytes) (bound : pieces.length ≤ Mtu.maxNumChunks) :
    ∃ frames, ConnectionState.Appends state (state.queueChunks message priority pieces.length pieces) priority frames ∧
      frames.length = pieces.length ∧ (∀ frame ∈ frames, frame.numChunks ≠ 0) ∧
      chunksFollow (state.sendReliableSeqNum message.channel) frames = true ∧
      (state.queueChunks message priority pieces.length pieces).sendReliableSeqNum message.channel =
        lastNumber (state.sendReliableSeqNum message.channel) frames := by
  induction pieces generalizing state with
  | nil => exact ⟨[],ConnectionState.appends_nil state priority,rfl,by simp,rfl,rfl⟩
  | cons piece pieces ih =>
    obtain ⟨frame,one,kind,channel,data,count,number,last⟩ := ConnectionState.queueMessageChunk_appends state
      { MessageData.new with
        channel := message.channel, reliability := .reliable
        isConnecting := message.isConnecting, data := piece }
      priority (BitVec.ofNat 16 (piece :: pieces).length)
    obtain ⟨frames,rest,sizes,counted,follow,final⟩ := ih _ (Nat.le_of_succ_le bound)
    refine ⟨frame :: frames,ConnectionState.appends_trans one rest,congrArg (· + 1) sizes,?_,?_,?_⟩
    · intro other present
      rcases List.mem_cons.mp present with rfl | later
      · rw [count]
        exact chunk_counted (Nat.succ_pos _) bound
      · exact counted other later
    · rw [last] at follow
      exact (chunksFollow_cons _ _ _).mpr ⟨kind,number rfl,follow⟩
    · rw [last] at final
      rw [lastNumber_cons]
      exact final

theorem queueMessage_frames (ran : state.queueMessage message priority = some after) :
    (¬Accepted message ∧ after = state) ∨
      ∃ frames, QueuedFrames state after message priority frames := by
  rcases ConnectionState.queueMessage_appends ran with refused | ⟨accepted,_,frames,unit,appends⟩
  · exact .inl refused
  refine .inr ⟨frames,?_⟩
  unfold ConnectionState.queueMessage at ran
  split at ran
  · cases ran
  · split at ran
    · rename_i fits
      cases Option.some.inj ran
      obtain ⟨frame,one,kind,_,_,count,number,last⟩ :=
        ConnectionState.queueMessageChunk_appends state message priority 1
      obtain rfl := appends_unique appends one
      have reliable : Numbered message → message.reliability = .reliable :=
        fun numbered => numbered.resolve_right (Nat.not_lt.mpr fits)
      refine ⟨accepted,unit,appends,?_,?_,?_,?_⟩
      · intro other present
        rw [List.mem_singleton.mp present,count]
        exact fun zero => absurd zero (by decide)
      · exact (if_pos fits).symm
      · intro numbered
        exact (chunksFollow_cons _ _ _).mpr ⟨kind.trans (reliable numbered),number (reliable numbered),rfl⟩
      · exact fun _ => last
    · rename_i long
      split at ran
      · rename_i refused
        exact absurd accepted (Nat.not_le.mpr refused)
      · cases Option.some.inj ran
        have pieces := chunksOf_length long
        obtain ⟨others,all,sizes,counted,follow,last⟩ := queueChunks_frames state message priority
          (chunksOf message.data) (pieces ▸ accepted)
        rw [pieces] at all last sizes
        obtain rfl := appends_unique appends all
        exact ⟨accepted,unit,appends,counted,sizes,fun _ => follow,fun _ => last⟩

end Queue
end NwNetwork.Carrier
