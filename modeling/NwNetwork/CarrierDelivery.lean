import NwNetwork.CarrierReassembler

namespace NwNetwork.Carrier
open WireReader

inductive Arrival where
  | accept (frame : MessageData)
  | nextReady (channel : UInt8)
  deriving DecidableEq, Repr

namespace Reassembler

def handle (reassembler : Reassembler) : List Arrival → List (UInt8 × MessageData) × Reassembler
  | [] => ([],reassembler)
  | .accept frame :: arrivals => handle (reassembler.accept frame) arrivals
  | .nextReady channel :: arrivals =>
    match reassembler.nextReady channel with
    | none => handle reassembler arrivals
    | some (msg,next) =>
      let (others,final) := handle next arrivals
      ((channel,msg) :: others,final)

end Reassembler

def onChannel (channel : UInt8) (delivered : List (UInt8 × MessageData)) : List MessageData :=
  (delivered.filter (fun pair => decide (pair.1 = channel))).map Prod.snd

-- What an owner has been handed on a channel after a history of accepts and
-- requests that ends with a drain.
def delivered (channel : UInt8) (arrivals : List Arrival) : List MessageData :=
  let owned := Reassembler.new.handle arrivals
  onChannel channel (owned.1 ++ owned.2.drain.1)

def accepted (channel : UInt8) (arrivals : List Arrival) : List MessageData :=
  arrivals.filterMap fun
    | .accept frame => if frame.channel = channel then some frame else none
    | .nextReady _ => none

theorem onChannel_append (channel : UInt8) (first second : List (UInt8 × MessageData)) :
    onChannel channel (first ++ second) = onChannel channel first ++ onChannel channel second := by
  simp [onChannel]

theorem onChannel_same (channel : UInt8) (msgs : List MessageData) :
    onChannel channel (msgs.map fun msg => (channel,msg)) = msgs := by
  simp [onChannel,List.filter_map,Function.comp_def]

theorem onChannel_other (ne : other ≠ channel) (msgs : List MessageData) :
    onChannel channel (msgs.map fun msg => (other,msg)) = [] := by
  simp [onChannel,List.filter_map,Function.comp_def,ne]

def channelEvent (channel : UInt8) : Arrival → Option (FifoMachine.Event MessageData)
  | .accept frame => if frame.channel = channel then some (.push frame) else none
  | .nextReady other => if other = channel then some .next else none

-- The channels do not meet: seen from one channel, a history is the run of that
-- channel's queue on the events that name it.
theorem handle_channel (real : channel.toNat < maxChannels) (reassembler : Reassembler)
    (arrivals : List Arrival) :
    (channelQueue channel).run (reassembler channel) (arrivals.filterMap (channelEvent channel)) =
      (onChannel channel (reassembler.handle arrivals).1,(reassembler.handle arrivals).2 channel) := by
  induction arrivals generalizing reassembler with
  | nil => rfl
  | cons arrival arrivals ih =>
    cases arrival with
    | accept frame =>
      by_cases same : frame.channel = channel
      · have rest := ih (reassembler.accept frame)
        simp only [Reassembler.accept,same,real,if_true,PerChannel.set_same] at rest
        simpa [channelEvent,Reassembler.handle,Reassembler.accept,same,real,FifoMachine.run,channelQueue] using rest
      · have rest := ih (reassembler.accept frame)
        have untouched : reassembler.accept frame channel = reassembler channel := by
          unfold Reassembler.accept
          split
          · exact PerChannel.set_other _ _ (Ne.symm same)
          · rfl
        rw [untouched] at rest
        simpa [channelEvent,Reassembler.handle,same] using rest
    | nextReady other =>
      by_cases same : other = channel
      · subst same
        cases ready : ChannelState.nextReady other (reassembler other) with
        | none =>
          have rest := ih reassembler
          simpa [channelEvent,Reassembler.handle,Reassembler.nextReady,ready,FifoMachine.run,channelQueue] using rest
        | some result =>
          obtain ⟨msg,state⟩ := result
          have rest := ih (reassembler.set other state)
          rw [PerChannel.set_same] at rest
          simp [channelEvent,Reassembler.handle,Reassembler.nextReady,ready,FifoMachine.run,channelQueue,onChannel] at rest ⊢
          simp [rest]
      · cases ready : ChannelState.nextReady other (reassembler other) with
        | none =>
          have rest := ih reassembler
          simpa [channelEvent,Reassembler.handle,Reassembler.nextReady,ready,same] using rest
        | some result =>
          obtain ⟨msg,state⟩ := result
          have rest := ih (reassembler.set other state)
          rw [PerChannel.set_other _ _ (Ne.symm same)] at rest
          simpa [channelEvent,Reassembler.handle,Reassembler.nextReady,ready,same,onChannel] using rest

theorem drainFrom_absent (absent : channel ∉ list) (reassembler : Reassembler) :
    onChannel channel (reassembler.drainFrom list).1 = [] := by
  induction list generalizing reassembler with
  | nil => rfl
  | cons other list ih =>
    simp only [List.mem_cons,not_or] at absent
    simp only [Reassembler.drainFrom,onChannel_append]
    rw [onChannel_other (Ne.symm absent.1),ih absent.2]
    rfl

theorem drainFrom_untouched (absent : channel ∉ list) (reassembler : Reassembler) :
    (reassembler.drainFrom list).2 channel = reassembler channel := by
  induction list generalizing reassembler with
  | nil => rfl
  | cons other list ih =>
    simp only [List.mem_cons,not_or] at absent
    simp only [Reassembler.drainFrom]
    rw [ih absent.2,PerChannel.set_other _ _ absent.1]

theorem drainFrom_channel (present : channel ∈ list) (distinct : list.Nodup) (reassembler : Reassembler) :
    onChannel channel (reassembler.drainFrom list).1 =
      ((channelQueue channel).drain (reassembler channel)).1 := by
  induction list generalizing reassembler with
  | nil => cases present
  | cons other list ih =>
    obtain ⟨fresh,distinct⟩ := List.nodup_cons.mp distinct
    simp only [Reassembler.drainFrom,onChannel_append]
    by_cases same : other = channel
    · subst same
      rw [onChannel_same,drainFrom_absent fresh,List.append_nil]
    · have later : channel ∈ list := (List.mem_cons.mp present).resolve_left (Ne.symm same)
      rw [onChannel_other same,ih later distinct,PerChannel.set_other _ _ (Ne.symm same)]
      rfl

theorem drainFrom_state (present : channel ∈ list) (distinct : list.Nodup) (reassembler : Reassembler) :
    (reassembler.drainFrom list).2 channel = ((channelQueue channel).drain (reassembler channel)).2 := by
  induction list generalizing reassembler with
  | nil => cases present
  | cons other list ih =>
    obtain ⟨fresh,distinct⟩ := List.nodup_cons.mp distinct
    simp only [Reassembler.drainFrom]
    by_cases same : other = channel
    · subst same
      rw [drainFrom_untouched fresh,PerChannel.set_same]
    · have later : channel ∈ list := (List.mem_cons.mp present).resolve_left (Ne.symm same)
      rw [ih later distinct,PerChannel.set_other _ _ (Ne.symm same)]

theorem channels_real (real : channel.toNat < maxChannels) : channel ∈ channels := by
  have bound : channel.toNat < 4 := real
  have known : ∀ c : Fin 4, UInt8.ofNat c.val ∈ channels := by decide
  have found := known ⟨channel.toNat,bound⟩
  rwa [UInt8.ofNat_toNat] at found

theorem delivered_drain (real : channel.toNat < maxChannels) (arrivals : List Arrival) :
    delivered channel arrivals =
      ((channelQueue channel).drain (ChannelState.new.push (accepted channel arrivals))).1 := by
  have seen := handle_channel real Reassembler.new arrivals
  have drained := (channelQueue channel).run_drain (Reassembler.new channel)
    (arrivals.filterMap (channelEvent channel))
  rw [seen] at drained
  have inputs : (arrivals.filterMap (channelEvent channel)).filterMap FifoMachine.Event.input =
      accepted channel arrivals := by
    rw [List.filterMap_filterMap]
    unfold accepted
    congr 1
    funext arrival
    cases arrival with
    | accept frame => by_cases same : frame.channel = channel <;> simp [channelEvent,same,FifoMachine.Event.input]
    | nextReady other => by_cases same : other = channel <;> simp [channelEvent,same,FifoMachine.Event.input]
  rw [inputs] at drained
  unfold delivered
  simp only [onChannel_append]
  unfold Reassembler.drain
  rw [drainFrom_channel (channels_real real) (by decide)]
  exact drained

end NwNetwork.Carrier
