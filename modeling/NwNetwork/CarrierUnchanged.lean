import NwNetwork.CarrierStored

-- What each call of a connection leaves as it is.
namespace NwNetwork.Carrier
open WireReader Serialize

section Calls
variable {lz4 : Lz4} {state after queued : ConnectionState}

-- The fields that only the driver or an arriving datagram may change.
structure SameReceiver (state after : ConnectionState) : Prop where
  isConnecting : after.isConnecting = state.isConnecting
  reassembler : after.reassembler = state.reassembler
  toReceive : after.toReceive = state.toReceive

theorem queueMessage_receiver (ran : state.queueMessage message priority = some after) : SameReceiver state after := by
  rcases ConnectionState.queueMessage_appends ran with ⟨_,rfl⟩ | ⟨_,_,_,_,appends⟩
  · exact ⟨rfl,rfl,rfl⟩
  · rw [appends.others]
    exact ⟨rfl,rfl,rfl⟩

theorem queueAcks_receiver (ran : state.queueAcks now = some queued) : SameReceiver state queued := by
  rcases ConnectionState.queueAcks_cases ran with ⟨_,rfl⟩ | ⟨_,_,_,_,_,_,_,_,_,whole⟩
  · exact ⟨rfl,rfl,rfl⟩
  · rw [whole]
    exact ⟨rfl,rfl,rfl⟩

theorem generate_receiver (ran : state.generateDatagram lz4 now maxDatagramSize = some (result,after)) :
    SameReceiver state after ∧ after.sendReliableSeqNum = state.sendReliableSeqNum := by
  rcases generateDatagram_cases ran with ⟨_,_,_,_,_,whole⟩ | ⟨_,_,_,_,_,whole⟩ | ⟨_,rfl⟩
  · rw [whole]
    exact ⟨⟨rfl,rfl,rfl⟩,rfl⟩
  · rw [whole]
    exact ⟨⟨rfl,rfl,rfl⟩,rfl⟩
  · exact ⟨⟨rfl,rfl,rfl⟩,rfl⟩

theorem prepare_receiver (ran : state.prepareOutgoingDatagram lz4 now maxDatagramSize = some (result,after)) :
    SameReceiver state after := by
  obtain ⟨queued,queues,generate⟩ := Option.bind_eq_some_iff.mp ran
  have acks := queueAcks_receiver queues
  have rest := (generate_receiver generate).1
  exact ⟨rest.isConnecting.trans acks.isConnecting,rest.reassembler.trans acks.reassembler,
    rest.toReceive.trans acks.toReceive⟩

theorem resends_receiver (state : ConnectionState) (now : Nat) :
    SameReceiver state (state.processResends now).2 ∧
      (state.processResends now).2.sendReliableSeqNum = state.sendReliableSeqNum := by
  unfold ConnectionState.processResends
  rcases ConnectionState.resendFrom now state.sendDatagrams state.toSend with ⟨count,left,toSend⟩
  exact ⟨⟨rfl,rfl,rfl⟩,rfl⟩

-- A call numbers messages of its own channel only.
theorem queueMessageChunk_numbers (other : message.channel ≠ channel) :
    (state.queueMessageChunk message priority numChunks).sendReliableSeqNum channel =
      state.sendReliableSeqNum channel :=
  PerChannel.set_other _ _ (Ne.symm other)

theorem queueChunks_numbers (other : message.channel ≠ channel) (state : ConnectionState) (count : Nat)
    (pieces : List Bytes) : (state.queueChunks message priority count pieces).sendReliableSeqNum channel =
      state.sendReliableSeqNum channel := by
  induction pieces generalizing state count with
  | nil => rfl
  | cons piece pieces ih =>
    unfold ConnectionState.queueChunks
    rw [ih]
    exact queueMessageChunk_numbers other

theorem queueMessage_numbers (other : message.channel ≠ channel)
    (ran : state.queueMessage message priority = some after) :
    after.sendReliableSeqNum channel = state.sendReliableSeqNum channel := by
  unfold ConnectionState.queueMessage at ran
  split at ran
  · cases ran
  · split at ran
    · cases Option.some.inj ran
      exact queueMessageChunk_numbers other
    · split at ran
      · cases Option.some.inj ran
        rfl
      · cases Option.some.inj ran
        exact queueChunks_numbers other _ _ _

theorem queueAcks_numbers (user : channel ≠ systemChannel) (ran : state.queueAcks now = some queued) :
    queued.sendReliableSeqNum channel = state.sendReliableSeqNum channel := by
  unfold ConnectionState.queueAcks at ran
  split at ran
  · obtain ⟨⟨frame,noted⟩,written,rest⟩ := Option.bind_eq_some_iff.mp ran
    obtain ⟨middle,asked,done⟩ := Option.bind_eq_some_iff.mp rest
    obtain ⟨⟨frame,last,history⟩,again,same⟩ := Option.bind_eq_some_iff.mp written
    cases Option.some.inj same
    cases Option.some.inj done
    have other : (ConnectionState.ackMessage state.isConnecting frame).channel ≠ channel := Ne.symm user
    have numbers := queueMessage_numbers other asked
    exact numbers
  · cases Option.some.inj ran
    rfl

theorem prepare_numbers (user : channel ≠ systemChannel)
    (ran : state.prepareOutgoingDatagram lz4 now maxDatagramSize = some (result,after)) :
    after.sendReliableSeqNum channel = state.sendReliableSeqNum channel := by
  obtain ⟨queued,queues,generate⟩ := Option.bind_eq_some_iff.mp ran
  rw [(generate_receiver generate).2,queueAcks_numbers user queues]

theorem processSystemMessage_sender {next : ConnectionState}
    (ran : state.processSystemMessage msg = .ok (forwarded,next)) :
    next = { state with sendDatagrams := next.sendDatagrams } := by
  unfold ConnectionState.processSystemMessage at ran
  split at ran
  · cases ran
  · split at ran
    · split at ran
      · cases ran
        unfold ConnectionState.readAckData
        split <;> rfl
      · cases ran
        rfl
    · cases ran
      rfl

-- The loop over what was drained fills inboxes and takes acknowledged datagrams off.
theorem route_unchanged (state : ConnectionState) (delivered : List (UInt8 × MessageData)) :
    (state.route delivered).2 = { state with
      toReceive := (state.route delivered).2.toReceive, sendDatagrams := (state.route delivered).2.sendDatagrams } := by
  induction delivered generalizing state with
  | nil => rfl
  | cons head rest ih =>
    obtain ⟨channel,msg⟩ := head
    unfold ConnectionState.route
    split
    · cases handled : state.processSystemMessage msg with
      | error => rfl
      | ok pair =>
        obtain ⟨forwarded,next⟩ := pair
        have same := processSystemMessage_sender handled
        cases forwarded with
        | true =>
          dsimp only
          rw [ih (next.toInbox channel msg),same]
          rfl
        | false =>
          dsimp only
          rw [ih next,same]
    · rw [ih (state.toInbox channel msg)]
      rfl

theorem incoming_unchanged (ran : state.processIncomingDatagram lz4 data = some (result,after)) :
    after.isConnecting = state.isConnecting ∧ after.sendReliableSeqNum = state.sendReliableSeqNum := by
  rcases incoming_cases ran with ⟨_,_,_,rfl⟩ | ⟨decoded,_,history,_,_,⟨_,_,rfl⟩ | ⟨_,routed⟩⟩
  · exact ⟨rfl,rfl⟩
  · exact ⟨rfl,rfl⟩
  · obtain rfl : after = _ := congrArg Prod.snd routed
    rw [route_unchanged]
    exact ⟨rfl,rfl⟩

end Calls
end NwNetwork.Carrier
