import NwNetwork.CarrierConservation
import NwNetwork.CarrierResendOrder
import NwNetwork.CarrierDriver

namespace NwNetwork.Carrier
open WireReader Serialize

-- Every message that waits in a queue, or for a resend to that queue.
structure Stored (good : Priority → MessageData → Prop) (state : ConnectionState) : Prop where
  queued : ∀ priority, ∀ msg ∈ state.toSend priority, good priority msg
  resent : ∀ dgram ∈ state.sendDatagrams, ∀ priority, ∀ msg ∈ dgram.toResend priority, good priority msg

-- A datagram that opens to frames of this kind.
def Carries (lz4 : Lz4) (good : Priority → MessageData → Prop) (datagram : Bytes) : Prop :=
  ∃ decoded, decodeDatagram lz4 datagram = .ok decoded ∧ ∀ frame ∈ decoded.frames, ∃ priority, good priority frame

-- Each channel has a queue of its own for the messages of this kind.
def KeepsLanes (lane : UInt8 → Priority) (good : Priority → MessageData → Prop) : Prop :=
  ∀ {priority msg}, good priority msg → msg.numChunks ≠ 0 ∧ lane msg.channel = priority

section Kept
variable {lz4 : Lz4} {state after queued : ConnectionState} {good wider : Priority → MessageData → Prop}

theorem stored_wider (stored : Stored good state) (implies : ∀ {priority msg}, good priority msg → wider priority msg) :
    Stored wider state :=
  ⟨fun priority msg present => implies (stored.queued priority msg present),
    fun dgram among priority msg present => implies (stored.resent dgram among priority msg present)⟩

theorem carries_wider (carries : Carries lz4 good datagram)
    (implies : ∀ {priority msg}, good priority msg → wider priority msg) : Carries lz4 wider datagram := by
  obtain ⟨decoded,opened,frames⟩ := carries
  refine ⟨decoded,opened,fun frame present => ?_⟩
  obtain ⟨priority,kind⟩ := frames frame present
  exact ⟨priority,implies kind⟩

theorem stored_added (stored : Stored good state) (datagrams : after.sendDatagrams = state.sendDatagrams)
    (queues : after.toSend = state.toSend.set priority (state.toSend priority ++ msgs))
    (new : ∀ msg ∈ msgs, good priority msg) : Stored good after := by
  constructor
  · intro other msg present
    rw [queues] at present
    by_cases same : other = priority
    · subst same
      rw [PerPriority.set_same] at present
      rcases List.mem_append.mp present with old | added
      · exact stored.queued other msg old
      · exact new msg added
    · rw [PerPriority.set_other _ _ same] at present
      exact stored.queued other msg present
  · rw [datagrams]
    exact stored.resent

theorem stored_push (stored : Stored good state) (new : good 0 msg) : Stored good (state.pushFirst msg) := by
  have queues : (state.pushFirst msg).toSend = state.toSend.set 0 (state.toSend 0 ++ [msg]) := rfl
  apply stored_added stored _ queues
  · simpa using new
  · rfl

theorem stored_queue (stored : Stored good state) (ran : state.queueMessage message priority = some after)
    (new : ∀ frames, IsUnit message frames → ConnectionState.Appends state after priority frames →
      ∀ msg ∈ frames, good (queueIndex priority) msg) : Stored good after := by
  rcases ConnectionState.queueMessage_appends ran with ⟨_,rfl⟩ | ⟨_,_,frames,unit,appends⟩
  · exact stored
  · apply stored_added stored _ appends.queues (new frames unit appends)
    rw [appends.others]

-- A message that fits is numbered and otherwise queued as it is.
theorem queueMessage_small (fits : message.data.length ≤ Mtu.maxMessageDataSize)
    (ran : state.queueMessage message priority = some after) :
    after = state.queueMessageChunk message priority 1 := by
  unfold ConnectionState.queueMessage at ran
  split at ran
  · cases ran
  · exact (Option.some.inj ran).symm

-- What an acknowledgement looks like in the queue.
structure IsAck (msg : MessageData) : Prop where
  reliability : msg.reliability = .unreliable
  channel : msg.channel = systemChannel
  single : msg.numChunks = 1
  ends : ∃ body, msg.data = body ++ [SystemMessage.ctAcks]

theorem queueAcks_pushes (ran : state.queueAcks now = some queued) :
    queued.toSend = state.toSend ∨ ∃ ack, IsAck ack ∧ queued.toSend = state.toSend.set 0 (state.toSend 0 ++ [ack]) := by
  rcases ConnectionState.queueAcks_cases ran with ⟨_,rfl⟩ | ⟨due,bytes,last,history,_,made,_,_,_,_⟩
  · exact .inl rfl
  · unfold ConnectionState.queueAcks at ran
    rw [if_pos due] at ran
    obtain ⟨⟨frame,noted⟩,written,rest⟩ := Option.bind_eq_some_iff.mp ran
    obtain ⟨middle,asked,done⟩ := Option.bind_eq_some_iff.mp rest
    obtain ⟨⟨frame,last,history⟩,again,same⟩ := Option.bind_eq_some_iff.mp written
    cases Option.some.inj same
    cases Option.some.inj done
    have short := writeAckHistory_short again
    have fits : (ConnectionState.ackMessage state.isConnecting frame).data.length ≤ Mtu.maxMessageDataSize := by
      simp only [ConnectionState.ackMessage,List.length_append,List.length_singleton]
      exact Nat.le_trans (Nat.succ_le_succ short) (by decide)
    obtain rfl := queueMessage_small fits asked
    exact .inr ⟨_,⟨rfl,rfl,rfl,frame,rfl⟩,rfl⟩

theorem stored_acks (stored : Stored good state) (ran : state.queueAcks now = some queued)
    (acks : ∀ ack, IsAck ack → good 0 ack) : Stored good queued := by
  have datagrams := queueAcks_datagrams ran
  rcases queueAcks_pushes ran with same | ⟨ack,kind,queues⟩
  · exact ⟨same ▸ stored.queued,datagrams ▸ stored.resent⟩
  · apply stored_added stored datagrams queues
    simpa using acks ack kind

theorem filled_kept (filled : Filled maxDatagramSize queues filling popped left final)
    (waiting : ∀ queue ∈ queues, ∀ msg ∈ queue.2, good queue.1 msg)
    (before : ∀ priority, ∀ msg ∈ filling.dgramData.toResend priority, good priority msg) :
    ∀ priority, ∀ msg ∈ final.dgramData.toResend priority, good priority msg := by
  induction filled with
  | done => exact before
  | next _ ih => exact ih (fun queue later => waiting queue (List.mem_cons_of_mem _ later)) before
  | leaves _ _ _ ih => exact ih (fun queue later => waiting queue (List.mem_cons_of_mem _ later)) before
  | takes _ _ _ ih =>
    rename_i priority behind queues _ _ _ _ msg filling _ _ _
    apply ih
    · intro queue present other among
      rcases List.mem_cons.mp present with rfl | later
      · exact waiting (priority,msg :: behind) List.mem_cons_self other (List.mem_cons_of_mem _ among)
      · exact waiting queue (List.mem_cons_of_mem _ later) other among
    · intro other frame among
      unfold Filling.write Filling.track at among
      by_cases kind : msg.reliability = .reliable
      · simp only [if_pos kind] at among
        by_cases same : other = priority
        · subst same
          rw [PerPriority.set_same] at among
          rcases List.mem_append.mp among with kept | added
          · exact before other frame kept
          · rw [List.mem_singleton.mp added]
            exact waiting _ List.mem_cons_self msg List.mem_cons_self
        · rw [PerPriority.set_other _ _ same] at among
          exact before other frame among
      · simp only [if_neg kind] at among
        exact before other frame among

theorem popped_kept (stored : Stored good queued)
    (left : ∀ priority, queued.toSend priority =
      poppedFrom (queued.toSend priority) (after.toSend priority) ++ after.toSend priority) :
    (∀ priority, ∀ msg ∈ after.toSend priority, good priority msg) ∧
      ∀ popped ∈ poppedMessages queued.toSend after.toSend, good popped.1 popped.2 := by
  constructor
  · intro priority msg present
    apply stored.queued priority
    rw [left priority]
    exact List.mem_append_right _ present
  · intro popped present
    obtain ⟨priority,_,among⟩ := List.mem_flatMap.mp present
    obtain ⟨msg,taken,rfl⟩ := List.mem_map.mp among
    exact stored.queued priority msg (List.mem_of_mem_take taken)

theorem stored_generate (stored : Stored good queued)
    (ran : queued.generateDatagram lz4 now maxDatagramSize = some (result,after)) : Stored good after := by
  have listed : ∀ queue ∈ priorities.map (fun priority => (priority,queued.toSend priority)),
      ∀ msg ∈ queue.2, good queue.1 msg := by
    intro queue present
    obtain ⟨priority,_,rfl⟩ := List.mem_map.mp present
    exact stored.queued priority
  rcases generateDatagram_cases ran with ⟨_,final,filled,_,_,whole⟩ | ⟨_,_,filled,_,_,whole⟩ | ⟨_,rfl⟩
  · have new := filled_kept filled listed fun _ _ present => absurd present List.not_mem_nil
    have datagrams : after.sendDatagrams = queued.sendDatagrams ++ [final.dgramData] := by rw [whole]
    refine ⟨(popped_kept stored (filled_popped filled).2).1,?_⟩
    rw [datagrams]
    intro dgram present
    rcases List.mem_append.mp present with old | added
    · exact stored.resent dgram old
    · rw [List.mem_singleton.mp added]
      exact new
  · have datagrams : after.sendDatagrams = queued.sendDatagrams := by rw [whole]
    exact ⟨(popped_kept stored (filled_popped filled).2).1,datagrams ▸ stored.resent⟩
  · exact stored

theorem stored_prepare (stored : Stored good state) (acks : ∀ ack, IsAck ack → good 0 ack)
    (ran : state.prepareOutgoingDatagram lz4 now maxDatagramSize = some (result,after)) : Stored good after := by
  obtain ⟨queued,queues,generate⟩ := Option.bind_eq_some_iff.mp ran
  exact stored_generate (stored_acks stored queues acks) generate

theorem stored_incoming (stored : Stored good state)
    (ran : state.processIncomingDatagram lz4 data = some (result,after)) : Stored good after := by
  obtain ⟨kept,queues⟩ := incoming_records ran
  refine ⟨queues ▸ stored.queued,?_⟩
  intro dgram present priority
  have known : (dgram.sequenceNumber,dgram.toResend) ∈ records after.sendDatagrams := List.mem_map_of_mem present
  rw [kept] at known
  obtain ⟨other,among,same⟩ := List.mem_map.mp (List.mem_filter.mp known).1
  have lists : other.toResend = dgram.toResend := congrArg Prod.snd same
  rw [←lists]
  exact stored.resent other among priority

theorem stored_resends (stored : Stored good state) : Stored good (state.processResends now).2 := by
  constructor
  · intro priority msg present
    rw [processResends_queues] at present
    rcases List.mem_append.mp present with moved | old
    · obtain ⟨list,listed,among⟩ := List.mem_flatten.mp moved
      obtain ⟨dgram,expired,rfl⟩ := List.mem_map.mp (List.mem_reverse.mp listed)
      exact stored.resent dgram ((List.takeWhile_sublist _).subset (List.mem_filter.mp expired).1) priority msg among
    · exact stored.queued priority msg old
  · intro dgram present
    exact stored.resent dgram ((resendFrom_sublist now _ _).subset present)

end Kept

section Lanes
variable {lz4 : Lz4} {state after : ConnectionState} {good : Priority → MessageData → Prop}
  {lane : UInt8 → Priority}

-- A message that did not fit announces its channel in vain, but no later queue
-- holds a message of this channel.
theorem legible_lanes (limit : maxDatagramSize < 2^16) (lanes : KeepsLanes lane good) {queues : List Queued}
    (distinct : (queues.map Prod.fst).Nodup) (waiting : ∀ queue ∈ queues, ∀ msg ∈ queue.2, good queue.1 msg)
    (filling : Filling) (wire : UInt8)
    (announced : filling.context.currentChannel = wire ∨
      lane filling.context.currentChannel ∉ queues.map Prod.fst) :
    Legible maxDatagramSize queues filling wire := by
  induction queues generalizing filling wire with
  | nil => exact .done
  | cons first queues ih =>
    obtain ⟨priority,queue⟩ := first
    obtain ⟨apart,fresh⟩ : (queues.map Prod.fst).Nodup ∧ priority ∉ queues.map Prod.fst :=
      (List.nodup_cons.mp distinct).symm
    have later : ∀ queue ∈ queues, ∀ msg ∈ queue.2, good queue.1 msg :=
      fun other present => waiting other (List.mem_cons_of_mem _ present)
    have own : ∀ msg ∈ queue, good priority msg := waiting _ List.mem_cons_self
    clear waiting distinct
    induction queue generalizing filling wire with
    | nil =>
      refine .next (ih apart later filling wire ?_)
      rcases announced with same | absent
      · exact .inl same
      · exact .inr fun present => absent (List.mem_cons_of_mem _ present)
    | cons msg queue inner =>
      obtain ⟨counted,home⟩ := lanes (own msg List.mem_cons_self)
      by_cases fits : filling.Fits maxDatagramSize msg
      · refine .takes fits ⟨counted,?_,?_⟩ ?_
        · unfold Filling.Fits at fits
          omega
        · intro current
          rcases announced with same | absent
          · exact current.trans same
          · rw [←current,home] at absent
            exact absurd List.mem_cons_self absent
        · exact inner (filling.write priority msg) msg.channel (.inl rfl)
            fun other present => own other (List.mem_cons_of_mem _ present)
      · refine .leaves fits (ih apart later (filling.look msg) wire (.inr ?_))
        rw [show (filling.look msg).context.currentChannel = msg.channel from rfl,home]
        exact fresh

theorem stored_legible (limit : maxDatagramSize < 2^16) (lanes : KeepsLanes lane good)
    (stored : Stored good state) (now : Nat) : LegibleQueues maxDatagramSize now state := by
  have order : ((priorities.map fun priority => (priority,state.toSend priority)).map Prod.fst) = priorities := rfl
  apply legible_lanes limit lanes
  · rw [order]
    decide
  · intro queue present
    obtain ⟨priority,_,rfl⟩ := List.mem_map.mp present
    exact stored.queued priority
  · exact .inl rfl

-- With lanes, what goes out opens to messages that were stored.
theorem prepare_carries (limit : maxDatagramSize < 2^16) (lanes : KeepsLanes lane good)
    (undone : ∀ payload : Bytes, payload.length ≤ maxDatagramSize →
      lz4.decompressPartial (lz4.compress payload) maxDecompressedBytes = some payload)
    (stored : Stored good state) (acks : ∀ ack, IsAck ack → good 0 ack)
    (ran : state.prepareOutgoingDatagram lz4 now maxDatagramSize = some (.ok (some datagram),after)) :
    Carries lz4 good datagram := by
  obtain ⟨queued,queues,generate⟩ := Option.bind_eq_some_iff.mp ran
  have stored := stored_acks stored queues acks
  obtain ⟨decoded,opened,frames⟩ := generated_frames undone generate
  refine ⟨decoded,opened,?_⟩
  rw [frames.mpr (stored_legible limit lanes stored now)]
  intro frame present
  obtain ⟨popped,among,rfl⟩ := List.mem_map.mp present
  rcases generateDatagram_cases generate with ⟨_,_,filled,_,_,_⟩ | ⟨_,_,_,_,nothing,_⟩ | ⟨nothing,_⟩
  · exact ⟨popped.1,(popped_kept stored (filled_popped filled).2).2 popped among⟩
  · cases nothing
  · exact absurd rfl (nothing datagram)

end Lanes
end NwNetwork.Carrier
