import NwNetwork.CarrierDelivery
import NwNetwork.CarrierDatagram

namespace NwNetwork.Carrier
open WireReader

-- A receiver is its reassembler. A datagram that does not decode leaves it as it
-- is.
def feed (lz4 : Lz4) (reassembler : Reassembler) (data : Bytes) :
    Except DecodeError (List (UInt8 × MessageData) × Reassembler) :=
  match decodeDatagram lz4 data with
  | .error error => .error error
  | .ok decoded => .ok (decoded.frames.foldl Reassembler.accept reassembler).drain

def feedAll (lz4 : Lz4) (reassembler : Reassembler) : List Bytes → List (UInt8 × MessageData) × Reassembler
  | [] => ([],reassembler)
  | data :: rest =>
    match feed lz4 reassembler data with
    | .error _ => feedAll lz4 reassembler rest
    | .ok (messages,next) => (messages ++ (feedAll lz4 next rest).1,(feedAll lz4 next rest).2)

def framesOn (channel : UInt8) (frames : List MessageData) : List MessageData :=
  frames.filter fun frame => frame.channel = channel

theorem accept_channel (real : channel.toNat < maxChannels) (reassembler : Reassembler)
    (frames : List MessageData) :
    (frames.foldl Reassembler.accept reassembler) channel =
      (reassembler channel).push (framesOn channel frames) := by
  induction frames generalizing reassembler with
  | nil => exact (push_nil _).symm
  | cons frame frames ih =>
    rw [List.foldl_cons,ih]
    unfold Reassembler.accept framesOn
    by_cases same : frame.channel = channel
    · subst same
      rw [if_pos real,PerChannel.set_same,push_push]
      simp
    · have untouched : (if frame.channel.toNat < maxChannels then
          reassembler.set frame.channel ((reassembler frame.channel).push [frame]) else reassembler) channel =
          reassembler channel := by
        split
        · exact PerChannel.set_other _ _ (Ne.symm same)
        · rfl
      rw [untouched]
      simp [same]

-- Fed datagram by datagram, a channel gives out what one drain gives after all
-- frames of the channel are in its queue.
theorem feedAll_channel (real : channel.toNat < maxChannels) {lz4 : Lz4}
    (opened : List.Forall₂ (fun data frames => ∃ decoded, decodeDatagram lz4 data = .ok decoded ∧
      decoded.frames = frames) datagrams frames)
    (reassembler : Reassembler) (drained : ((channelQueue channel).drain (reassembler channel)).1 = []) :
    onChannel channel (feedAll lz4 reassembler datagrams).1 =
      ((channelQueue channel).drain ((reassembler channel).push (framesOn channel frames.flatten))).1 := by
  induction opened generalizing reassembler with
  | nil =>
    rw [List.flatten_nil]
    exact (push_nil (reassembler channel)).symm ▸ drained.symm
  | cons first rest ih =>
    rename_i data frames datagrams others
    obtain ⟨decoded,ran,rfl⟩ := first
    have out := drainFrom_channel (channels_real real) (by decide)
      (decoded.frames.foldl Reassembler.accept reassembler)
    have left := drainFrom_state (channels_real real) (by decide)
      (decoded.frames.foldl Reassembler.accept reassembler)
    rw [accept_channel real] at out left
    have again : ((channelQueue channel).drain
        ((decoded.frames.foldl Reassembler.accept reassembler).drain.2 channel)).1 = [] := by
      unfold Reassembler.drain
      rw [left]
      exact (channelQueue channel).drain_drained _
    have later := ih _ again
    have whole := (channelQueue channel).drain_push
      ((reassembler channel).push (framesOn channel decoded.frames)) (framesOn channel others.flatten)
    have parts : framesOn channel (decoded.frames :: others).flatten =
        framesOn channel decoded.frames ++ framesOn channel others.flatten := by
      simp [framesOn]
    unfold feedAll feed
    rw [ran]
    simp only [onChannel_append]
    rw [later,parts,←push_push]
    unfold Reassembler.drain
    rw [out,left]
    exact whole

end NwNetwork.Carrier
