import NwNetwork.CarrierReceiver
import NwNetwork.CarrierConnectionState
import NwNetwork.CarrierFrameRoundTrip

namespace NwNetwork.Carrier
open WireReader Serialize

section Walk

-- A frame on a channel that does not exist ends the walk.
theorem readHeader_real (ran : readHeader context buffer = some (msg,next,rest)) :
    msg.channel.toNat < maxChannels := by
  unfold readHeader at ran
  obtain ⟨⟨flags,_⟩,_,ran⟩ := Option.bind_eq_some_iff.mp ran
  dsimp only at ran
  split at ran
  · cases ran
  · obtain ⟨⟨dataSize,_⟩,_,ran⟩ := Option.bind_eq_some_iff.mp ran
    obtain ⟨⟨currentChannel,_⟩,_,ran⟩ := Option.bind_eq_some_iff.mp ran
    dsimp only at ran
    split at ran
    · cases ran
    · rename_i real
      obtain ⟨⟨numChunks,_⟩,_,ran⟩ := Option.bind_eq_some_iff.mp ran
      obtain ⟨⟨sequenceNumber,_⟩,_,ran⟩ := Option.bind_eq_some_iff.mp ran
      obtain ⟨⟨sendReliableSeqNum,_⟩,_,ran⟩ := Option.bind_eq_some_iff.mp ran
      obtain ⟨⟨payload,_⟩,_,ran⟩ := Option.bind_eq_some_iff.mp ran
      cases Option.some.inj ran
      exact Nat.not_le.mp real

theorem walkFrom_real (present : frame ∈ walkFrom fuel context buffer) : frame.channel.toNat < maxChannels := by
  induction fuel generalizing context buffer with
  | zero => cases present
  | succ fuel ih =>
    unfold walkFrom at present
    split at present
    · cases present
    · split at present
      · cases present
      · rename_i read
        rcases List.mem_cons.mp present with rfl | later
        · exact readHeader_real read
        · exact ih later

theorem decoded_real (opened : decodeDatagram lz4 data = .ok decoded) (present : frame ∈ decoded.frames) :
    frame.channel.toNat < maxChannels := by
  unfold decodeDatagram at opened
  split at opened
  · cases opened
  · split at opened
    · split at opened
      · cases opened
      · cases opened
        exact walkFrom_real present
    · cases opened
      exact walkFrom_real present

end Walk

section Outcome
variable {lz4 : Lz4} {state after : ConnectionState}

theorem processSystemMessage_cases (state : ConnectionState) (msg : MessageData) :
    (msg.data = [] ∧ state.processSystemMessage msg = .error .systemMessageTooSmall) ∨
    ∃ forwarded next, state.processSystemMessage msg = .ok (forwarded,next) ∧ next.toReceive = state.toReceive := by
  unfold ConnectionState.processSystemMessage
  cases last : msg.data.getLast? with
  | none => exact .inl ⟨List.getLast?_eq_none_iff.mp last,rfl⟩
  | some msgId =>
    dsimp only
    split
    · split
      · refine .inr ⟨false,_,rfl,?_⟩
        unfold ConnectionState.readAckData
        split <;> rfl
      · exact .inr ⟨false,state,rfl,rfl⟩
    · exact .inr ⟨true,state,rfl,rfl⟩

-- A system message without an identifier ends the loop. Any other one is passed
-- over, after it has touched no inbox but the system channel's.
theorem route_system (state : ConnectionState) (msg : MessageData) (rest : List (UInt8 × MessageData)) :
    (msg.data = [] ∧ state.route ((systemChannel,msg) :: rest) = (.error .systemMessageTooSmall,state)) ∨
    ∃ next : ConnectionState, state.route ((systemChannel,msg) :: rest) = next.route rest ∧
      ∀ channel, channel ≠ systemChannel → next.toReceive channel = state.toReceive channel := by
  rw [ConnectionState.route,if_pos rfl]
  rcases processSystemMessage_cases state msg with ⟨empty,failed⟩ | ⟨forwarded,next,handled,same⟩
  · rw [failed]
    exact .inl ⟨empty,rfl⟩
  · rw [handled]
    cases forwarded with
    | true =>
      refine .inr ⟨next.toInbox systemChannel msg,rfl,fun channel user => ?_⟩
      rw [←same]
      exact PerChannel.set_other _ _ user
    | false => exact .inr ⟨next,rfl,fun channel _ => congrFun same channel⟩

theorem route_user (user : channel ≠ systemChannel) (state : ConnectionState) (msg : MessageData)
    (rest : List (UInt8 × MessageData)) :
    state.route ((channel,msg) :: rest) = (state.toInbox channel msg).route rest := by
  rw [ConnectionState.route,if_neg user]

theorem route_result (state : ConnectionState) (delivered : List (UInt8 × MessageData)) :
    (state.route delivered).1 = .ok () ∨ (state.route delivered).1 = .error .systemMessageTooSmall := by
  induction delivered generalizing state with
  | nil => exact .inl rfl
  | cons head rest ih =>
    obtain ⟨channel,msg⟩ := head
    by_cases system : channel = systemChannel
    · subst system
      rcases route_system state msg rest with ⟨_,ended⟩ | ⟨next,passed,_⟩
      · exact .inr (congrArg Prod.fst ended)
      · rw [passed]
        exact ih next
    · rw [route_user system]
      exact ih (state.toInbox channel msg)

-- The messages that the frames of a datagram make deliverable.
def ConnectionState.released (state : ConnectionState) (decoded : DecodedDatagram) : List (UInt8 × MessageData) :=
  (decoded.frames.foldl Reassembler.accept state.reassembler).drain.1

-- A connection between the drain and the loop over what was drained.
def ConnectionState.drained (state : ConnectionState) (decoded : DecodedDatagram)
    (history : DatagramHistoryList) : ConnectionState := { state with
  receivedSinceLastSend := true
  receivedDatagramsHistory := history
  reassembler := (decoded.frames.foldl Reassembler.accept state.reassembler).drain.2 }

theorem incoming_fresh (opened : decodeDatagram lz4 data = .ok decoded)
    (fresh : state.receivedDatagramsHistory.insert decoded.header.sequenceNumber = some (true,history)) :
    state.processIncomingDatagram lz4 data =
      some ((state.drained decoded history).route (state.released decoded)) := by
  unfold ConnectionState.processIncomingDatagram
  dsimp only
  rw [opened]
  dsimp only
  rw [fresh]
  rfl

-- The three ways a datagram can end: it does not decode, its number is known, or
-- what its frames make deliverable is handed on.
theorem incoming_cases (ran : state.processIncomingDatagram lz4 data = some (result,after)) :
    (∃ source, decodeDatagram lz4 data = .error source ∧ result = .error (.decode source) ∧
      after = { state with receivedSinceLastSend := true }) ∨
    ∃ decoded fresh history, decodeDatagram lz4 data = .ok decoded ∧
      state.receivedDatagramsHistory.insert decoded.header.sequenceNumber = some (fresh,history) ∧
      ((fresh = false ∧ result = .error .duplicateDatagram ∧ after = { state with
        receivedSinceLastSend := true, receivedDatagramsHistory := history
        reassembler := decoded.frames.foldl Reassembler.accept state.reassembler }) ∨
      (fresh = true ∧ (result,after) = (state.drained decoded history).route (state.released decoded))) := by
  unfold ConnectionState.processIncomingDatagram at ran
  dsimp only at ran
  cases opened : decodeDatagram lz4 data with
  | error source =>
    rw [opened] at ran
    cases Option.some.inj ran
    exact .inl ⟨source,rfl,rfl,rfl⟩
  | ok decoded =>
    rw [opened] at ran
    obtain ⟨⟨fresh,history⟩,insert,ran⟩ := Option.bind_eq_some_iff.mp ran
    refine .inr ⟨decoded,fresh,history,rfl,insert,?_⟩
    dsimp only at ran
    cases fresh with
    | false =>
      cases Option.some.inj ran
      exact .inl ⟨rfl,rfl,rfl⟩
    | true => exact .inr ⟨rfl,(Option.some.inj ran).symm⟩

-- Nothing that decides what the receiver hands out has changed.
structure ReceivesAsBefore (before after : ConnectionState) : Prop where
  queues : ∀ channel, (after.reassembler channel).staging = (before.reassembler channel).staging
  reliableIds : ∀ channel, (after.reassembler channel).receivedReliableSeqNum =
    (before.reassembler channel).receivedReliableSeqNum
  deliverable : ∀ frames : List MessageData, (frames.foldl Reassembler.accept after.reassembler).drain.1 =
    (frames.foldl Reassembler.accept before.reassembler).drain.1
  inboxes : after.toReceive = before.toReceive

def CarriesNothing (lz4 : Lz4) (data : Bytes) : Prop :=
  ∀ decoded, decodeDatagram lz4 data = .ok decoded → decoded.frames = []

-- The frames of a duplicate are all in the queues by the time its number is
-- found to be known.
theorem duplicate_staged (ran : state.processIncomingDatagram lz4 data = some (.error .duplicateDatagram,after)) :
    ∃ decoded, decodeDatagram lz4 data = .ok decoded ∧ after.toReceive = state.toReceive ∧
      after.reassembler = decoded.frames.foldl Reassembler.accept state.reassembler := by
  rcases incoming_cases ran with ⟨_,_,impossible,_⟩ | ⟨decoded,_,_,opened,_,⟨_,_,rfl⟩ | ⟨_,routed⟩⟩
  · cases impossible
  · exact ⟨decoded,opened,rfl,rfl⟩
  · have ended := congrArg Prod.fst routed
    rcases route_result _ _ with done | tooSmall
    · exact absurd (ended.trans done) (by simp)
    · exact absurd (ended.trans tooSmall) (by simp)

theorem duplicate_changes_nothing
    (ran : state.processIncomingDatagram lz4 data = some (.error .duplicateDatagram,after)) :
    ReceivesAsBefore state after ↔ CarriesNothing lz4 data := by
  obtain ⟨decoded,opened,inboxes,staged⟩ := duplicate_staged ran
  constructor
  · intro same found again
    cases opened.symm.trans again
    apply List.eq_nil_iff_forall_not_mem.mpr
    intro frame present
    have real := decoded_real opened present
    have unchanged : framesOn frame.channel decoded.frames = [] := by
      simpa [staged,accept_channel real] using same.queues frame.channel
    have among : frame ∈ framesOn frame.channel decoded.frames := by
      simpa [framesOn] using present
    rw [unchanged] at among
    cases among
  · intro nothing
    have same : after.reassembler = state.reassembler := by
      rw [staged,nothing decoded opened]
      rfl
    exact ⟨fun _ => by rw [same],fun _ => by rw [same],fun _ => by rw [same],inboxes⟩

-- One reliable frame on the first channel under datagram number 7.
def oneFrameDatagram : Bytes := [0x80,0,0,7,0x21,0,1,0,0,0,0,0,9]

def receivedOnce : ConnectionState :=
  (((ConnectionState.new 0 false).processIncomingDatagram storedBlocks oneFrameDatagram).map Prod.snd).getD
    (ConnectionState.new 0 false)

theorem duplicate_changes_nothing_empty : ∃ state after : ConnectionState,
    state.processIncomingDatagram storedBlocks [0x80,0,0,7] = some (.error .duplicateDatagram,after) ∧
      (ReceivesAsBefore state after ↔ CarriesNothing storedBlocks [0x80,0,0,7]) := by
  have ran : ∃ state after : ConnectionState,
      state.processIncomingDatagram storedBlocks [0x80,0,0,7] = some (.error .duplicateDatagram,after) :=
    ⟨receivedOnce,_,rfl⟩
  obtain ⟨state,after,ran⟩ := ran
  exact ⟨state,after,ran,duplicate_changes_nothing ran⟩

theorem duplicate_frames_staged :
    ¬∀ (lz4 : Lz4) (data : Bytes) (state after : ConnectionState),
      state.processIncomingDatagram lz4 data = some (.error .duplicateDatagram,after) →
        ReceivesAsBefore state after := by
  intro always
  have ran : ∃ state after : ConnectionState,
      state.processIncomingDatagram storedBlocks oneFrameDatagram = some (.error .duplicateDatagram,after) ∧
      (state.reassembler 0).staging = [] ∧ (after.reassembler 0).staging.length = 1 :=
    ⟨receivedOnce,_,rfl,rfl,rfl⟩
  obtain ⟨state,after,ran,before,staged⟩ := ran
  have same := (always storedBlocks oneFrameDatagram state after ran).queues 0
  rw [same,before] at staged
  cases staged

theorem drainFrom_append (first second : List UInt8) (reassembler : Reassembler) :
    (reassembler.drainFrom (first ++ second)).1 =
      (reassembler.drainFrom first).1 ++ ((reassembler.drainFrom first).2.drainFrom second).1 := by
  induction first generalizing reassembler with
  | nil => rfl
  | cons channel first ih => simp only [List.cons_append,Reassembler.drainFrom,ih,List.append_assoc]

theorem drainFrom_listed (reassembler : Reassembler) (present : pair ∈ (reassembler.drainFrom list).1) :
    pair.1 ∈ list := by
  induction list generalizing reassembler with
  | nil => cases present
  | cons channel list ih =>
    rcases List.mem_append.mp present with own | later
    · obtain ⟨msg,_,rfl⟩ := List.mem_map.mp own
      exact List.mem_cons_self
    · exact List.mem_cons_of_mem _ (ih _ later)

-- The system channel has the highest number, so it is drained behind the others.
theorem drain_system_last (reassembler : Reassembler) :
    ∃ user system, reassembler.drain.1 = user ++ system ∧ (∀ pair ∈ user, pair.1 ≠ systemChannel) ∧
      ∀ pair ∈ system, pair.1 = systemChannel := by
  refine ⟨_,_,drainFrom_append [0,1,2] [systemChannel] reassembler,?_,?_⟩
  · intro pair present
    have listed := drainFrom_listed reassembler present
    simp only [List.mem_cons,List.not_mem_nil,or_false] at listed
    rcases listed with same | same | same
    all_goals
      rw [same]
      decide
  · intro pair present
    exact List.mem_singleton.mp (drainFrom_listed _ present)

theorem route_user_first (user : ∀ pair ∈ first, pair.1 ≠ systemChannel) (state : ConnectionState)
    (rest : List (UInt8 × MessageData)) :
    ∃ next : ConnectionState, state.route (first ++ rest) = next.route rest ∧
      ∀ channel, next.toReceive channel = state.toReceive channel ++ onChannel channel first := by
  induction first generalizing state with
  | nil => exact ⟨state,rfl,fun channel => (List.append_nil _).symm⟩
  | cons head first ih =>
    obtain ⟨other,msg⟩ := head
    obtain ⟨next,passed,inboxes⟩ := ih (fun pair later => user pair (List.mem_cons_of_mem _ later)) (state.toInbox other msg)
    refine ⟨next,?_,?_⟩
    · rw [List.cons_append,route_user (user _ List.mem_cons_self),passed]
    · intro channel
      rw [inboxes]
      by_cases same : other = channel
      · subst same
        simp [ConnectionState.toInbox,onChannel]
      · simp [ConnectionState.toInbox,onChannel,same,PerChannel.set,Ne.symm same]

theorem route_system_only (system : ∀ pair ∈ rest, pair.1 = systemChannel) (state : ConnectionState)
    (user : channel ≠ systemChannel) : (state.route rest).2.toReceive channel = state.toReceive channel := by
  induction rest generalizing state with
  | nil => rfl
  | cons head rest ih =>
    obtain ⟨other,msg⟩ := head
    obtain rfl : other = systemChannel := system _ List.mem_cons_self
    rcases route_system state msg rest with ⟨_,ended⟩ | ⟨next,passed,inboxes⟩
    · rw [ended]
    · rw [passed,ih (fun pair later => system pair (List.mem_cons_of_mem _ later)),inboxes channel user]

-- All that a drain gives to the other channels is in their inboxes before the
-- first system message is looked at.
theorem route_drained (state : ConnectionState) (reassembler : Reassembler) (user : channel ≠ systemChannel) :
    (state.route reassembler.drain.1).2.toReceive channel =
      state.toReceive channel ++ onChannel channel reassembler.drain.1 := by
  obtain ⟨first,system,split,others,last⟩ := drain_system_last reassembler
  obtain ⟨next,passed,inboxes⟩ := route_user_first others state system
  have silent : onChannel channel system = [] := by
    unfold onChannel
    rw [List.filter_eq_nil_iff.mpr,List.map_nil]
    intro pair present
    simp [last pair present,Ne.symm user]
  rw [split,passed,route_system_only last next user,inboxes,onChannel_append,silent,List.append_nil]

theorem bad_system_message (opened : decodeDatagram lz4 data = .ok decoded)
    (fresh : state.receivedDatagramsHistory.insert decoded.header.sequenceNumber = some (true,history)) :
    ∃ result after, state.processIncomingDatagram lz4 data = some (result,after) ∧
      (result = .ok () ∨ result = .error .systemMessageTooSmall) ∧
      ∀ channel, channel ≠ systemChannel →
        after.toReceive channel = state.toReceive channel ++ onChannel channel (state.released decoded) := by
  refine ⟨_,_,incoming_fresh opened fresh,route_result _ _,?_⟩
  intro channel user
  exact route_drained (state.drained decoded history) _ user

-- A message on the first channel next to an empty one on the system channel.
def mixedDatagram : Bytes := [0x80,0,0,7,0x21,0,1,0,0,0,0,0,9,0x20,0,0,3,0,0,0xff,0xff]

theorem bad_system_message_mixed : ∃ result after,
    (ConnectionState.new 0 false).processIncomingDatagram storedBlocks mixedDatagram = some (result,after) ∧
      result = .error .systemMessageTooSmall ∧ (after.toReceive 0).map (·.data) = [[9]] := by
  obtain ⟨result,after,ran,_,inboxes⟩ := bad_system_message
    (show decodeDatagram storedBlocks mixedDatagram = .ok _ from rfl)
    (show (ConnectionState.new 0 false).receivedDatagramsHistory.insert _ = some (true,_) from rfl)
  refine ⟨result,after,ran,?_,?_⟩
  · exact Option.some.inj (congrArg (Option.map Prod.fst) ran).symm
  · rw [inboxes 0 (by decide)]
    rfl

end Outcome

end NwNetwork.Carrier
