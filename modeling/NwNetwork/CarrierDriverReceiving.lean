import NwNetwork.CarrierDriverMoves
import NwNetwork.CarrierArrivals

namespace NwNetwork.Carrier
open WireReader Serialize

-- What the application has been given on a channel.
def receivedOn (channel : UInt8) (events : List CarrierEvent) : List Bytes :=
  events.filterMap fun
    | .messageReceived other data => if other = channel then some data else none
    | _ => none

section Receiving
variable {lz4 : Lz4} {driver after : CarrierDriver} {fine : MessageData → Prop}

theorem receivedOn_append (channel : UInt8) (first second : List CarrierEvent) :
    receivedOn channel (first ++ second) = receivedOn channel first ++ receivedOn channel second :=
  List.filterMap_append

theorem system_received (effect : SystemEffect driver data after) (channel : UInt8) :
    after.threadConn.reassembler = driver.threadConn.reassembler ∧
      receivedOn channel after.toMain = receivedOn channel driver.toMain := by
  cases effect with
  | nothing => exact ⟨rfl,rfl⟩
  | refused | request | ack | disconnect =>
    refine ⟨rfl,?_⟩
    exact (receivedOn_append channel _ _).trans (List.append_nil _)

theorem handOver_reassembler (driver : CarrierDriver) (channel : UInt8) (msg : MessageData) :
    (driver.handOver channel msg).threadConn.reassembler = driver.threadConn.reassembler := by
  unfold CarrierDriver.handOver
  split
  · exact (system_received (handleSystemMessage_effect driver msg.data) channel).1
  · rfl

-- A message of a user channel is given to the application of this channel.
theorem handOver_received (driver : CarrierDriver) (user : channel ≠ systemChannel) (msg : MessageData) :
    receivedOn channel (driver.handOver other msg).toMain =
      receivedOn channel driver.toMain ++ if other = channel then [msg.data] else [] := by
  unfold CarrierDriver.handOver
  by_cases system : other = systemChannel
  · rw [if_pos system,(system_received (handleSystemMessage_effect driver msg.data) channel).2,
      if_neg fun same => user (same.symm.trans system),List.append_nil]
  · rw [if_neg system]
    refine (receivedOn_append channel _ _).trans ?_
    by_cases same : other = channel <;> simp [receivedOn,same]

-- What a move does to the receiving half of a driver.
inductive Receives (lz4 : Lz4) (driver after : CarrierDriver) : Prop where
  | keeps (gates : after.threadConn.reassembler = driver.threadConn.reassembler)
      (inboxes : after.threadConn.toReceive = driver.threadConn.toReceive)
      (events : ∀ channel, receivedOn channel after.toMain = receivedOn channel driver.toMain)
  | hears (ran : driver.threadConn.processIncomingDatagram lz4 data = some (result,after.threadConn))
      (heard : data ∈ after.heard) (events : after.toMain = driver.toMain)
  | hands (real : channel ∈ channels) (ready : driver.threadConn.toReceive channel = msg :: rest)
      (same : after = { driver with threadConn := driver.threadConn.popReady channel rest }.handOver channel msg)

theorem move_receives (move : Move lz4 driver after) : Receives lz4 driver after := by
  have plain : ∀ (event : CarrierEvent) (channel : UInt8), (∀ channel data, event ≠ .messageReceived channel data) →
      receivedOn channel (driver.toMain ++ [event]) = receivedOn channel driver.toMain := by
    intro event channel other
    rw [receivedOn_append]
    cases event with
    | messageReceived channel data => exact absurd rfl (other channel data)
    | _ => exact List.append_nil _
  cases move with
  | queues ran | saysDisconnect ran =>
    have same := queueMessage_receiver ran
    exact .keeps same.reassembler same.toReceive fun _ => rfl
  | prepares ran | writes ran =>
    have same := prepare_receiver ran
    exact .keeps same.reassembler same.toReceive fun _ => rfl
  | requests | keepsAlive | stops | flags => exact .keeps rfl rfl fun _ => rfl
  | schedules =>
    obtain ⟨_,_,same⟩ := scheduleNextRetry_timer _ driver
    rw [same]
    exact .keeps rfl rfl fun _ => rfl
  | resends =>
    rename_i now
    have same := (resends_receiver driver.threadConn now).1
    exact .keeps same.reassembler same.toReceive fun _ => rfl
  | leaves | reports | fails => exact .keeps rfl rfl fun channel => plain _ channel (by simp)
  | hears ran => exact .hears ran (List.mem_append_right _ List.mem_cons_self) rfl
  | hands real ready => exact .hands real ready rfl

theorem move_waits (real : channel.toNat < maxChannels) (whole : ∀ {frame}, fine frame → ¬1 < frame.numChunks.toNat)
    (waits : Waits fine channel driver.threadConn)
    (arriving : ∀ data ∈ after.heard, ∀ decoded, decodeDatagram lz4 data = .ok decoded →
      ∀ frame ∈ decoded.frames, frame.channel = channel → fine frame)
    (move : Move lz4 driver after) : Waits fine channel after.threadConn := by
  cases move_receives move with
  | keeps gates inboxes => exact ⟨gates ▸ waits.staging,inboxes ▸ waits.inbox⟩
  | hears ran heard => exact incoming_waits real whole waits (arriving _ heard) ran
  | @hands other msg rest _ ready same =>
    subst same
    refine ⟨?_,?_⟩
    · rw [handOver_reassembler]
      exact waits.staging
    · rw [handOver_toReceive]
      intro given present
      by_cases own : channel = other
      · subst own
        simp only [ConnectionState.popReady,PerChannel.set_same] at present
        exact waits.inbox given (ready ▸ List.mem_cons_of_mem _ present)
      · simp only [ConnectionState.popReady,PerChannel.set_other _ _ own] at present
        exact waits.inbox given present

end Receiving

end NwNetwork.Carrier
