import NwNetwork.CarrierDelivery

namespace NwNetwork.Carrier
open WireReader

-- The reliable message that a channel has handed up last.
def lastReliable (msgs : List MessageData) : Option MessageData :=
  (msgs.filter fun msg => decide (msg.reliability = .reliable)).getLast?

def numberAfter (start : SequenceNumber) (msgs : List MessageData) : SequenceNumber :=
  ((lastReliable msgs).map (·.sendReliableSeqNum)).getD start

section Delivered
variable {channel : UInt8} {state next : ChannelState} {msg : MessageData}

theorem numberAfter_reliable (reliable : msg.reliability = .reliable) (start : SequenceNumber) (msgs : List MessageData) :
    numberAfter start (msg :: msgs) = numberAfter msg.sendReliableSeqNum msgs := by
  unfold numberAfter lastReliable
  rw [List.filter_cons_of_pos (by simpa using reliable),List.getLast?_cons]
  cases (msgs.filter fun msg => decide (msg.reliability = .reliable)).getLast? with
  | none => rfl
  | some last => rfl

theorem numberAfter_unreliable (unreliable : msg.reliability = .unreliable) (start : SequenceNumber)
    (msgs : List MessageData) : numberAfter start (msg :: msgs) = numberAfter start msgs := by
  unfold numberAfter lastReliable
  rw [List.filter_cons_of_neg (by simp [unreliable])]

-- A delivery moves the gate to the number of a reliable message, and leaves it
-- where it is for an unreliable one.
theorem nextReady_gate (ready : state.nextReady channel = some (msg,next)) (msgs : List MessageData) :
    numberAfter next.receivedReliableSeqNum msgs = numberAfter state.receivedReliableSeqNum (msg :: msgs) := by
  rcases nextReady_cases ready with ⟨rest,_,rfl,gate⟩ | ⟨head,rest,_,_,_,_,_,_,taken⟩
  · rcases gate with ⟨unreliable,_⟩ | ⟨reliable,_⟩
    · rw [numberAfter_unreliable unreliable]
      simp [deliverHead,unreliable]
    · rw [numberAfter_reliable reliable]
      simp [deliverHead,reliable]
  · have reliable : msg.reliability = .reliable := by
      rw [show msg = _ from congrArg Prod.fst taken]
      rfl
    rw [numberAfter_reliable reliable]
    cases taken
    rfl

theorem accept_number (reassembler : Reassembler) (frame : MessageData) (channel : UInt8) :
    (reassembler.accept frame channel).receivedReliableSeqNum = (reassembler channel).receivedReliableSeqNum := by
  unfold Reassembler.accept
  split
  · by_cases same : channel = frame.channel
    · rw [same,PerChannel.set_same,push_reliable]
    · rw [PerChannel.set_other _ _ same]
  · rfl

theorem onChannel_cons (other channel : UInt8) (msg : MessageData) (delivered : List (UInt8 × MessageData)) :
    onChannel channel ((other,msg) :: delivered) =
      if other = channel then msg :: onChannel channel delivered else onChannel channel delivered := by
  unfold onChannel
  by_cases same : other = channel <;> simp [same]

-- The gate stands at the number of the reliable message that was delivered last.
theorem handle_gate (reassembler : Reassembler) (arrivals : List Arrival) (channel : UInt8) :
    ((reassembler.handle arrivals).2 channel).receivedReliableSeqNum =
      numberAfter (reassembler channel).receivedReliableSeqNum (onChannel channel (reassembler.handle arrivals).1) := by
  induction arrivals generalizing reassembler with
  | nil => rfl
  | cons arrival arrivals ih =>
    cases arrival with
    | accept frame =>
      have rest := ih (reassembler.accept frame)
      rw [accept_number] at rest
      exact rest
    | nextReady other =>
      unfold Reassembler.handle
      cases ready : ChannelState.nextReady other (reassembler other) with
      | none =>
        simp only [Reassembler.nextReady,ready,Option.map_none]
        exact ih reassembler
      | some result =>
        obtain ⟨msg,state⟩ := result
        have rest := ih (reassembler.set other state)
        simp only [Reassembler.nextReady,ready,Option.map_some]
        rw [rest,onChannel_cons]
        by_cases same : other = channel
        · subst same
          rw [PerChannel.set_same,if_pos rfl,nextReady_gate ready]
        · rw [PerChannel.set_other _ _ (Ne.symm same),if_neg same]

end Delivered

theorem unreliable_gating {arrivals : List Arrival} {channel : UInt8} {msg before : MessageData} {next : Reassembler}
    (ready : (Reassembler.new.handle arrivals).2.nextReady channel = some (msg,next))
    (unreliable : msg.reliability = .unreliable)
    (latest : lastReliable (onChannel channel (Reassembler.new.handle arrivals).1) = some before)
    (used : before.sendReliableSeqNum ≠ sequenceNumberMax) :
    msg.sendReliableSeqNum = before.sendReliableSeqNum := by
  have gate := handle_gate Reassembler.new arrivals channel
  unfold numberAfter at gate
  rw [latest] at gate
  simp only [Option.map_some,Option.getD_some] at gate
  obtain ⟨⟨one,state⟩,taken,same⟩ := Option.map_eq_some_iff.mp ready
  cases same
  rcases nextReady_cases taken with ⟨rest,_,_,⟨_,fresh | next_number⟩ | ⟨reliable,_⟩⟩ | ⟨head,rest,_,_,_,_,_,_,chunks⟩
  · exact absurd (gate.symm.trans fresh) used
  · rw [gate] at next_number
    exact (distance_zero_iff _ _).mp next_number
  · rw [unreliable] at reliable
    cases reliable
  · have reliable : msg.reliability = .reliable := by
      rw [show msg = _ from congrArg Prod.fst chunks]
      rfl
    rw [unreliable] at reliable
    cases reliable

-- As long as no reliable message has been delivered there is no gate.
theorem fresh_channel_passes {arrivals : List Arrival} {channel : UInt8} {head : MessageData}
    (none_yet : lastReliable (onChannel channel (Reassembler.new.handle arrivals).1) = none)
    (queue : ((Reassembler.new.handle arrivals).2 channel).staging = head :: rest)
    (unreliable : head.reliability = .unreliable) :
    ∃ next, (Reassembler.new.handle arrivals).2.nextReady channel = some (head,next) := by
  have gate := handle_gate Reassembler.new arrivals channel
  unfold numberAfter at gate
  rw [none_yet] at gate
  have fresh : ((Reassembler.new.handle arrivals).2 channel).receivedReliableSeqNum = sequenceNumberMax := gate
  unfold Reassembler.nextReady ChannelState.nextReady
  rw [queue]
  simp only [unreliable,fresh,not_true_eq_false,false_and,if_false,Option.map_some]
  exact ⟨_,rfl⟩

def singleFrame (reliability : DataReliability) (number : SequenceNumber) : MessageData :=
  { MessageData.new with reliability := reliability, sendReliableSeqNum := number }

theorem unreliable_gating_afterReliable : ∃ next,
    (Reassembler.new.handle [.accept (singleFrame .reliable 0),.accept (singleFrame .unreliable 0),.nextReady 0]).2.nextReady 0 =
        some (singleFrame .unreliable 0,next) ∧
      (singleFrame .unreliable 0).sendReliableSeqNum = (singleFrame .reliable 0).sendReliableSeqNum :=
  ⟨_,rfl,unreliable_gating (show _ = some (singleFrame .unreliable 0,_) from rfl) rfl
    (show lastReliable (onChannel 0 (Reassembler.new.handle [.accept (singleFrame .reliable 0),
      .accept (singleFrame .unreliable 0),.nextReady 0]).1) = some (singleFrame .reliable 0) from rfl) (by decide)⟩

-- The message that was sent behind reliable message 0 is there first.
theorem fresh_channel_overtakes : ¬∀ (arrivals : List Arrival) (channel : UInt8) (msg : MessageData) (next : Reassembler),
    (Reassembler.new.handle arrivals).2.nextReady channel = some (msg,next) → msg.reliability = .unreliable →
    msg.sendReliableSeqNum ≠ sequenceNumberMax →
    ∃ before ∈ onChannel channel (Reassembler.new.handle arrivals).1,
      before.reliability = .reliable ∧ before.sendReliableSeqNum = msg.sendReliableSeqNum := by
  intro always
  obtain ⟨before,present,_⟩ := always [.accept (singleFrame .unreliable 0)] 0 (singleFrame .unreliable 0) _ rfl rfl (by decide)
  cases present

end NwNetwork.Carrier
