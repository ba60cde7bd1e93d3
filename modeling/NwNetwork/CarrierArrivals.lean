import NwNetwork.CarrierUnchanged

-- A datagram that arrives, seen from one channel.
namespace NwNetwork.Carrier
open WireReader Serialize

-- What waits behind the gate of a channel and in its inbox.
structure Waits (fine : MessageData → Prop) (channel : UInt8) (state : ConnectionState) : Prop where
  staging : ∀ frame ∈ (state.reassembler channel).staging, fine frame
  inbox : ∀ msg ∈ state.toReceive channel, fine msg

section Gate
variable {state next : ChannelState} {fine : MessageData → Prop}

-- Frames that stand for whole messages come out as they went in.
theorem nextReady_fine (whole : ∀ {frame}, fine frame → ¬1 < frame.numChunks.toNat)
    (staged : ∀ frame ∈ state.staging, fine frame) (ready : state.nextReady channel = some (msg,next)) :
    fine msg ∧ ∀ frame ∈ next.staging, fine frame := by
  rcases nextReady_cases ready with ⟨rest,queue,rfl,_⟩ | ⟨head,rest,queue,_,chunked,_,_,_,_⟩
  · rw [queue] at staged
    exact ⟨staged msg List.mem_cons_self,fun frame present => staged frame (List.mem_cons_of_mem _ present)⟩
  · rw [queue] at staged
    exact absurd chunked (whole (staged head List.mem_cons_self))

theorem drain_fine (whole : ∀ {frame}, fine frame → ¬1 < frame.numChunks.toNat)
    (staged : ∀ frame ∈ state.staging, fine frame) :
    (∀ msg ∈ ((channelQueue channel).drain state).1, fine msg) ∧
      ∀ frame ∈ ((channelQueue channel).drain state).2.staging, fine frame := by
  have keeps := (channelQueue channel).drain_keeps
    (fun {out state msg next} ready (kept : (∀ msg ∈ out, fine msg) ∧ ∀ frame ∈ state.staging, fine frame) => by
      obtain ⟨first,left⟩ := nextReady_fine whole kept.2 ready
      refine ⟨?_,left⟩
      intro other present
      rcases List.mem_append.mp present with old | new
      · exact kept.1 other old
      · exact (List.mem_singleton.mp new) ▸ first)
    ⟨fun _ present => absurd present List.not_mem_nil,staged⟩
  simpa using keeps

end Gate

section Connection
variable {lz4 : Lz4} {state after : ConnectionState} {fine : MessageData → Prop}

theorem toInbox_mem (present : msg ∈ (state.toInbox other given).toReceive channel) :
    msg ∈ state.toReceive channel ∨ (other,given) = (channel,msg) := by
  simp only [ConnectionState.toInbox] at present
  by_cases same : channel = other
  · subst same
    rw [PerChannel.set_same] at present
    rcases List.mem_append.mp present with old | new
    · exact .inl old
    · exact .inr (by rw [List.mem_singleton.mp new])
  · rw [PerChannel.set_other _ _ same] at present
    exact .inl present

theorem route_mem (state : ConnectionState) (delivered : List (UInt8 × MessageData))
    (present : msg ∈ (state.route delivered).2.toReceive channel) :
    msg ∈ state.toReceive channel ∨ (channel,msg) ∈ delivered := by
  induction delivered generalizing state with
  | nil => exact .inl present
  | cons head rest ih =>
    obtain ⟨other,given⟩ := head
    have through : ∀ {next : ConnectionState}, next.toReceive = state.toReceive →
        msg ∈ ((next.toInbox other given).route rest).2.toReceive channel →
        msg ∈ state.toReceive channel ∨ (channel,msg) ∈ (other,given) :: rest := by
      intro next same among
      rcases ih _ among with inbox | later
      · rcases toInbox_mem inbox with old | new
        · exact .inl (same ▸ old)
        · exact .inr (new ▸ List.mem_cons_self)
      · exact .inr (List.mem_cons_of_mem _ later)
    unfold ConnectionState.route at present
    split at present
    · rcases processSystemMessage_cases state given with ⟨_,failed⟩ | ⟨forwarded,next,handled,same⟩
      · rw [failed] at present
        exact .inl present
      · rw [handled] at present
        cases forwarded with
        | true => exact through same present
        | false =>
          rcases ih next present with old | later
          · exact .inl (same ▸ old)
          · exact .inr (List.mem_cons_of_mem _ later)
    · exact through rfl present

-- What one datagram does to a channel: nothing, its frames stay at the gate, or
-- the gate is drained behind them.
inductive Arrives (channel : UInt8) (state after : ConnectionState) (frames : List MessageData) : Prop where
  | staged (queue : after.reassembler channel = (state.reassembler channel).push frames)
      (inbox : after.toReceive channel = state.toReceive channel)
  | drained (queue : after.reassembler channel =
        ((channelQueue channel).drain ((state.reassembler channel).push frames)).2)
      (inbox : ∀ msg ∈ after.toReceive channel, msg ∈ state.toReceive channel ∨
        msg ∈ ((channelQueue channel).drain ((state.reassembler channel).push frames)).1)
      (user : channel ≠ systemChannel → after.toReceive channel = state.toReceive channel ++
        ((channelQueue channel).drain ((state.reassembler channel).push frames)).1)

theorem incoming_channel (real : channel.toNat < maxChannels)
    (ran : state.processIncomingDatagram lz4 data = some (result,after)) :
    ∃ frames, Arrives channel state after (framesOn channel frames) ∧
      (frames = [] ∨ ∃ decoded, decodeDatagram lz4 data = .ok decoded ∧ decoded.frames = frames) := by
  rcases incoming_cases ran with ⟨_,_,_,rfl⟩ | ⟨decoded,_,history,opened,_,⟨_,_,rfl⟩ | ⟨_,routed⟩⟩
  · exact ⟨[],.staged (push_nil _).symm rfl,.inl rfl⟩
  · exact ⟨decoded.frames,.staged (accept_channel real _ _) rfl,.inr ⟨decoded,opened,rfl⟩⟩
  · refine ⟨decoded.frames,?_,.inr ⟨decoded,opened,rfl⟩⟩
    obtain rfl : after = _ := congrArg Prod.snd routed
    have among := channels_real real
    have queue := drainFrom_state among (by decide) (decoded.frames.foldl Reassembler.accept state.reassembler)
    have out := drainFrom_channel among (by decide) (decoded.frames.foldl Reassembler.accept state.reassembler)
    rw [accept_channel real] at queue out
    refine .drained ?_ ?_ ?_
    · rw [route_unchanged]
      exact queue
    · intro msg present
      refine (route_mem _ _ present).imp_right fun handed => ?_
      rw [←out]
      exact List.mem_map.mpr ⟨(channel,msg),List.mem_filter.mpr ⟨handed,by simp⟩,rfl⟩
    · intro user
      rw [←out]
      exact route_drained (state.drained decoded history) _ user

theorem incoming_waits (real : channel.toNat < maxChannels)
    (whole : ∀ {frame}, fine frame → ¬1 < frame.numChunks.toNat) (waits : Waits fine channel state)
    (arriving : ∀ decoded, decodeDatagram lz4 data = .ok decoded →
      ∀ frame ∈ decoded.frames, frame.channel = channel → fine frame)
    (ran : state.processIncomingDatagram lz4 data = some (result,after)) : Waits fine channel after := by
  obtain ⟨frames,arrives,source⟩ := incoming_channel real ran
  have new : ∀ frame ∈ framesOn channel frames, fine frame := by
    intro frame present
    obtain ⟨among,own⟩ := List.mem_filter.mp present
    rcases source with rfl | ⟨decoded,opened,rfl⟩
    · exact absurd among List.not_mem_nil
    · exact arriving decoded opened frame among (by simpa using own)
  have pushed : ∀ frame ∈ ((state.reassembler channel).push (framesOn channel frames)).staging, fine frame := by
    intro frame present
    rcases List.mem_append.mp present with old | added
    · exact waits.staging frame old
    · exact new frame added
  cases arrives with
  | staged queue inbox => exact ⟨queue ▸ pushed,inbox ▸ waits.inbox⟩
  | drained queue inbox _ =>
    obtain ⟨out,left⟩ := drain_fine whole pushed
    refine ⟨queue ▸ left,fun msg present => ?_⟩
    rcases inbox msg present with old | handed
    · exact waits.inbox msg old
    · exact out msg handed

end Connection
end NwNetwork.Carrier
