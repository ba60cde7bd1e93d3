import NwNetwork.CarrierDriverMoves
import NwNetwork.CarrierUnchanged
import NwNetwork.CarrierQueuedFrames

namespace NwNetwork.Carrier
open WireReader Serialize PartialRuns

-- The messages that a move can bring into the queues.
inductive Makes (driver after : CarrierDriver) : Priority → MessageData → Prop where
  | ack (kind : IsAck msg) : Makes driver after 0 msg
  | request (role : driver.role = .initiator) :
      Makes driver after 0 (connectingMessage driver.makeConnectRequestPayload)
  | connectAck (role : driver.role = .responder) (announced : .connected driver.protocolVersion ∈ after.toMain) :
      Makes driver after 0 (connectingMessage (writeU32 driver.protocolVersion ++ [SystemMessage.connectAck]))
  | disconnect (told : .disconnect reason ∈ after.fromMain)
      (frames : QueuedFrames driver.threadConn after.threadConn (disconnectMessage reason) 0 list)
      (present : msg ∈ list) : Makes driver after 0 msg
  | user (told : after.fromMain = driver.fromMain ++ [.sendMessage message priority])
      (frames : QueuedFrames driver.threadConn after.threadConn message priority list) (present : msg ∈ list) :
      Makes driver after (queueIndex priority) msg

section Rule
variable {lz4 : Lz4} {driver after : CarrierDriver} {good wider : Priority → MessageData → Prop}

theorem stored_same {state next : ConnectionState} (stored : Stored good state) (queues : next.toSend = state.toSend)
    (datagrams : next.sendDatagrams = state.sendDatagrams) : Stored good next :=
  ⟨queues ▸ stored.queued,datagrams ▸ stored.resent⟩

theorem stored_frames {state next : ConnectionState} (stored : Stored good state)
    (ran : state.queueMessage message priority = some next)
    (new : ∀ {frames}, QueuedFrames state next message priority frames → ∀ msg ∈ frames, good (queueIndex priority) msg) :
    Stored good next := by
  rcases queueMessage_frames ran with ⟨_,rfl⟩ | ⟨frames,queued⟩
  · exact stored
  · apply stored_added stored _ queued.appends.queues (new queued)
    rw [queued.appends.others]

theorem system_stored (stored : Stored good driver.threadConn) (effect : SystemEffect driver data after)
    (reply : driver.role = .responder → .connected driver.protocolVersion ∈ after.toMain →
      good 0 (connectingMessage (writeU32 driver.protocolVersion ++ [SystemMessage.connectAck]))) :
    Stored good after.threadConn := by
  cases effect with
  | nothing | refused | ack | disconnect => exact stored_same stored rfl rfl
  | request body split long role read =>
    have pushed : Stored good driver.queueConnectAck.threadConn :=
      stored_push stored (reply role (List.mem_append_right _ List.mem_cons_self))
    exact stored_same pushed rfl rfl

theorem keepAlive_isAck : IsAck CarrierDriver.keepAliveMessage := ⟨rfl,rfl,rfl,[0x20],rfl⟩

theorem handOver_written (driver : CarrierDriver) (channel : UInt8) (msg : MessageData) :
    (driver.handOver channel msg).written = driver.written := by
  unfold CarrierDriver.handOver
  split
  · have effect := handleSystemMessage_effect driver msg.data
    generalize driver.handleSystemMessage msg.data = next at effect
    cases effect <;> rfl
  · rfl

-- One rule for all that is said of stored and written messages: only what a move
-- makes has to be looked at.
theorem move_stored (move : Move lz4 driver after) (stored : Stored good driver.threadConn)
    (new : ∀ {priority msg}, Makes driver after priority msg → good priority msg) : Stored good after.threadConn := by
  cases move with
  | queues ran =>
    exact stored_frames stored ran fun frames msg present =>
      new (.user rfl frames present)
  | saysDisconnect ran =>
    exact stored_frames stored ran fun frames msg present =>
      new (.disconnect (List.mem_append_right _ List.mem_cons_self) frames present)
  | requests role => exact stored_push stored (new (.request role))
  | keepsAlive => exact stored_push stored (new (.ack keepAlive_isAck))
  | schedules =>
    obtain ⟨_,_,same⟩ := scheduleNextRetry_timer _ driver
    rw [same]
    exact stored
  | prepares ran | writes ran => exact stored_prepare stored (fun ack kind => new (.ack kind)) ran
  | hears ran => exact stored_incoming stored ran
  | resends => exact stored_resends stored
  | leaves | reports | fails | stops | flags => exact stored_same stored rfl rfl
  | hands =>
    rename_i channel msg rest _ _
    have popped : Stored good (driver.threadConn.popReady channel rest) := stored_same stored rfl rfl
    unfold CarrierDriver.handOver at new ⊢
    split
    · rename_i system
      simp only [if_pos system] at new
      exact system_stored popped (handleSystemMessage_effect _ _) fun role announced =>
        new (.connectAck role announced)
    · exact popped

-- The block compressor undoes what fits a datagram.
def Undoes (lz4 : Lz4) : Prop := ∀ payload : Bytes, payload.length ≤ Mtu.maxDatagramSize →
  lz4.decompressPartial (lz4.compress payload) maxDecompressedBytes = some payload

-- All that a driver keeps for sending and all that it has handed to its transport.
structure Ships (lz4 : Lz4) (good : Priority → MessageData → Prop) (driver : CarrierDriver) : Prop where
  stored : Stored good driver.threadConn
  written : ∀ datagram ∈ driver.written, Carries lz4 good datagram

theorem ships_wider (ships : Ships lz4 good driver)
    (implies : ∀ {priority msg}, good priority msg → wider priority msg) : Ships lz4 wider driver :=
  ⟨stored_wider ships.stored implies,fun datagram present => carries_wider (ships.written datagram present) implies⟩

theorem ships_new (now : Nat) (sendCompressed : Bool) (version : BitVec 32) (role : CarrierRole) :
    Ships lz4 good (CarrierDriver.new now sendCompressed version role) :=
  ⟨⟨fun _ _ present => absurd present List.not_mem_nil,fun _ present => absurd present List.not_mem_nil⟩,
    fun _ present => absurd present List.not_mem_nil⟩

theorem move_ships (undoes : Undoes lz4) (lanes : KeepsLanes lane good) (move : Move lz4 driver after)
    (ships : Ships lz4 good driver) (new : ∀ {priority msg}, Makes driver after priority msg → good priority msg) :
    Ships lz4 good after := by
  refine ⟨move_stored move ships.stored new,?_⟩
  cases move with
  | writes ran =>
    intro datagram present
    rcases List.mem_append.mp present with old | added
    · exact ships.written datagram old
    · obtain rfl := List.mem_singleton.mp added
      exact prepare_carries (by decide) lanes undoes ships.stored (fun ack kind => new (.ack kind)) ran
  | hands => simpa only [handOver_written] using ships.written
  | schedules =>
    obtain ⟨_,_,same⟩ := scheduleNextRetry_timer _ driver
    rw [same]
    exact ships.written
  | _ => exact ships.written

end Rule
end NwNetwork.Carrier
