import NwNetwork.CarrierLinkIntegrity

-- Reliable messages through two drivers and a network that may lose, repeat and
-- reorder their datagrams.
namespace NwNetwork.Carrier
open WireReader Serialize PartialRuns

def pieces (messages : List MessageData) : Nat := (messages.map fun message => Mtu.chunksNeeded message.data.length).sum

-- A channel on which everything is numbered, and not so much of it that a number
-- comes back.
structure ReliableChannel (lane : UInt8 → Priority) (channel : UInt8) (driver : CarrierDriver) : Prop where
  lanes : UsesLanes lane driver
  numbered : ∀ message ∈ sentOn channel driver.fromMain, Numbered message
  few : pieces (sentOn channel driver.fromMain) < 2^16

section Numbers

-- The numbers of a run of frames, counted from the first one.
theorem follow_numbers (start : Nat) (follow : chunksFollow (BitVec.ofNat 16 start - 1) frames = true) :
    frames.map (·.sendReliableSeqNum) = (List.range' start frames.length).map (BitVec.ofNat 16) := by
  induction frames generalizing start with
  | nil => rfl
  | cons frame frames ih =>
    obtain ⟨_,number,rest⟩ := (chunksFollow_cons _ _ _).mp follow
    rw [BitVec.sub_add_cancel] at number
    have next : BitVec.ofNat 16 (start + 1) - 1 = frame.sendReliableSeqNum := by
      rw [number,BitVec.ofNat_add]
      exact BitVec.add_sub_cancel _ _
    rw [List.map_cons,List.length_cons,List.range'_succ,List.map_cons,number,ih (start + 1) (next ▸ rest)]

variable {frames : List MessageData}

theorem stream_numbers (follow : chunksFollow sequenceNumberMax frames = true) :
    frames.map (·.sendReliableSeqNum) = (List.range frames.length).map (BitVec.ofNat 16) := by
  rw [List.range_eq_range']
  exact follow_numbers 0 follow

theorem stream_apart (few : frames.length < 2^16) (follow : chunksFollow sequenceNumberMax frames = true) :
    ∀ a ∈ frames, ∀ b ∈ frames, a.sendReliableSeqNum = b.sendReliableSeqNum → a = b := by
  have distinct : (frames.map (·.sendReliableSeqNum)).Nodup := by
    rw [stream_numbers follow]
    refine List.Nodup.map_on ?_ List.nodup_range
    intro i first j second same
    have values := congrArg BitVec.toNat same
    simp only [List.mem_range,BitVec.toNat_ofNat] at first second values
    omega
  intro a first b second same
  exact List.inj_on_of_nodup_map distinct first second same

-- No frame has the number behind the last one.
theorem stream_ends (few : frames.length < 2^16) (follow : chunksFollow sequenceNumberMax frames = true)
    (present : frame ∈ frames) : frame.sendReliableSeqNum ≠ lastNumber sequenceNumberMax frames + 1 := by
  intro same
  have listed : frame.sendReliableSeqNum ∈ frames.map (·.sendReliableSeqNum) := List.mem_map_of_mem present
  have numbers := stream_numbers follow
  obtain ⟨count,size⟩ := Nat.exists_eq_succ_of_ne_zero (Nat.ne_of_gt (List.length_pos_of_mem present))
  have last : lastNumber sequenceNumberMax frames = BitVec.ofNat 16 count := by
    have final := congrArg List.getLast? numbers
    rw [List.getLast?_map,size,List.range_succ] at final
    simp only [List.map_append,List.map_cons,List.map_nil,List.getLast?_concat] at final
    rw [lastNumber,final]
    rfl
  rw [numbers,same,last] at listed
  obtain ⟨index,within,equal⟩ := List.mem_map.mp listed
  have values := congrArg BitVec.toNat equal
  have one : BitVec.toNat (1 : SequenceNumber) = 1 := rfl
  simp only [List.mem_range,BitVec.toNat_add,BitVec.toNat_ofNat] at within values
  rw [one] at values
  omega

end Numbers

-- The gate of a channel to which only frames of these units come: it has let the
-- first of them through, whole and in order.
structure InTurnSoFar (units : List (List MessageData)) (out : List Bytes) (state : ChannelState) : Prop where
  passed : ∃ taken rest, units = taken ++ rest ∧ out = taken.map (·.flatMap (·.data)) ∧
    state.receivedReliableSeqNum = lastNumber sequenceNumberMax taken.flatten
  staged : ∀ frame ∈ state.staging, frame ∈ units.flatten

section Gate
variable {units : List (List MessageData)} {state next : ChannelState}

theorem nextReady_inTurn (few : units.flatten.length < 2^16)
    (follow : chunksFollow sequenceNumberMax units.flatten = true)
    (formed : ∀ unit ∈ units, ∃ message, IsUnit message unit) (before : InTurnSoFar units out state)
    (ready : state.nextReady channel = some (msg,next)) : InTurnSoFar units (out ++ [msg.data]) next := by
  obtain ⟨⟨taken,rest,split,passed,last⟩,staged⟩ := before
  have apart := stream_apart few follow
  have reliable := follow_reliable follow
  -- The frame at the head is the first one of the next unit.
  have first : ∀ {head : MessageData} {more : List MessageData}, state.staging = head :: more →
      sequenceNumberSequentialDistance state.receivedReliableSeqNum head.sendReliableSeqNum = 1 →
      ∃ tail rest', rest = (head :: tail) :: rest' ∧ head.numChunks.toNat = (head :: tail).length ∧
        chunksFollow state.receivedReliableSeqNum (head :: tail) = true ∧
        ∀ frame ∈ head :: tail, frame ∈ units.flatten := by
    intro head more queue consecutive
    have number := (distance_one_iff _ _).mp consecutive
    have among : head ∈ units.flatten := staged head (queue ▸ List.mem_cons_self)
    cases rest with
    | nil =>
      rw [List.append_nil] at split
      rw [last,←split] at number
      exact absurd number (stream_ends few follow among)
    | cons unit rest' =>
      obtain ⟨message,own,tail,rfl,parts⟩ := formed unit (split ▸ List.mem_append_right _ List.mem_cons_self)
      have behind := follow
      rw [split,List.flatten_append,List.flatten_cons,chunksFollow_append,chunksFollow_append,←last] at behind
      obtain ⟨_,run,_⟩ := behind
      have within : ∀ frame ∈ own :: tail, frame ∈ units.flatten := by
        intro frame present
        rw [split,List.flatten_append,List.flatten_cons]
        exact List.mem_append_right _ (List.mem_append_left _ present)
      have same : head = own := apart head among own (within own List.mem_cons_self)
        (number.trans ((chunksFollow_cons _ _ _).mp run).2.1.symm)
      subst same
      exact ⟨tail,rest',rfl,parts.count,run,within⟩
  have goes : ∀ {head tail rest'}, rest = (head :: tail) :: rest' → msg.data = (head :: tail).flatMap (·.data) →
      next.receivedReliableSeqNum = lastNumber state.receivedReliableSeqNum (head :: tail) →
      (∀ frame ∈ next.staging, frame ∈ state.staging) → InTurnSoFar units (out ++ [msg.data]) next := by
    intro head tail rest' whole data reached left
    refine ⟨⟨taken ++ [head :: tail],rest',?_,?_,?_⟩,fun frame present => staged frame (left frame present)⟩
    · rw [split,whole,List.append_assoc]
      rfl
    · rw [passed,data,List.map_append]
      rfl
    · rw [reached,last,List.flatten_append,lastNumber_append,List.flatten_singleton]
  rcases nextReady_cases ready with ⟨more,queue,rfl,gate⟩ | ⟨head,more,queue,_,_,enough,consecutive,complete,out⟩
  · have kind := reliable msg (staged msg (queue ▸ List.mem_cons_self))
    rcases gate with ⟨unreliable,_⟩ | ⟨_,single,consecutive⟩
    · rw [kind] at unreliable
      cases unreliable
    · obtain ⟨tail,rest',whole,count,_,_⟩ := first queue consecutive
      have alone : tail = [] := by
        rw [count,List.length_cons] at single
        exact List.length_eq_zero_iff.mp (by omega)
      subst alone
      refine goes whole (by simp) (by simp [deliverHead,kind,lastNumber]) ?_
      intro frame present
      rw [queue]
      exact List.mem_cons_of_mem _ present
  · obtain ⟨tail,rest',whole,count,run,within⟩ := first queue consecutive
    have taken := run_taken apart run within (fun frame present _ => staged frame present) queue (count ▸ complete)
    rw [←count] at taken
    cases out
    refine goes whole ?_ ?_ fun frame present => List.mem_of_mem_drop present
    · simp only [assembled,taken]
    · simp only [assembled,taken]
      exact lastNumber_nonempty 0 _ (List.cons_ne_nil _ _)

theorem drain_inTurnSoFar (few : units.flatten.length < 2^16)
    (follow : chunksFollow sequenceNumberMax units.flatten = true)
    (formed : ∀ unit ∈ units, ∃ message, IsUnit message unit) (before : InTurnSoFar units out state) :
    InTurnSoFar units (out ++ ((channelQueue channel).drain state).1.map (·.data))
      ((channelQueue channel).drain state).2 := by
  have start : InTurnSoFar units (out ++ ([] : List MessageData).map (·.data)) state := by
    simpa using before
  have keeps := (channelQueue channel).drain_keeps
    (fun {given state msg next} ready (kept : InTurnSoFar units (out ++ given.map (·.data)) state) => by
      have step := nextReady_inTurn few follow formed kept ready
      rwa [List.append_assoc,←List.map_singleton,←List.map_append] at step)
    start
  exact keeps

end Gate

-- The frames of a list of messages, cut into the units of the messages.
abbrev Cut (messages : List MessageData) (units : List (List MessageData)) : Prop :=
  List.Forall₂ (fun message frames => IsUnit message frames ∧
    frames.length = Mtu.chunksNeeded message.data.length) messages units

-- The sending half of a channel: one unit an accepted message, numbered without a gap.
structure SendsInTurn (channel : UInt8) (driver : CarrierDriver) (units : List (List MessageData)) : Prop where
  cut : Cut (sentOn channel driver.fromMain) units
  follow : chunksFollow sequenceNumberMax units.flatten = true
  last : driver.threadConn.sendReliableSeqNum channel = lastNumber sequenceNumberMax units.flatten

-- The receiving half: what the application has and what waits for it in the inbox is
-- what the gate has let through.
def TakesInTurn (channel : UInt8) (driver : CarrierDriver) (units : List (List MessageData)) : Prop :=
  InTurnSoFar units (receivedOn channel driver.toMain ++ (driver.threadConn.toReceive channel).map (·.data))
    (driver.threadConn.reassembler channel)

section Halves
variable {lz4 : Lz4} {driver after : CarrierDriver} {units : List (List MessageData)} {lane : UInt8 → Priority}

theorem pieces_le (longer : first <+: second) : pieces first ≤ pieces second := by
  obtain ⟨more,rfl⟩ := longer
  simp [pieces]

theorem reliableChannel_earlier (longer : Extends driver after) (asked : ReliableChannel lane channel after) :
    ReliableChannel lane channel driver := by
  have sent := sentOn_grows channel longer.fromMain
  exact ⟨fun message priority told => asked.lanes message priority (longer.fromMain.subset told),
    fun message present => asked.numbered message (sent.subset present),
    Nat.lt_of_le_of_lt (pieces_le sent) asked.few⟩

theorem cut_size (cut : Cut messages units) : units.flatten.length = pieces messages := by
  induction cut with
  | nil => rfl
  | cons one _ ih =>
    rw [List.flatten_cons,List.length_append,ih,one.2]
    simp [pieces]

theorem cut_data (cut : Cut messages units) : units.map (·.flatMap (·.data)) = messages.map (·.data) := by
  induction cut with
  | nil => rfl
  | cons one _ ih =>
    obtain ⟨⟨_,_,rfl,parts⟩,_⟩ := one
    rw [List.map_cons,List.map_cons,ih,parts.data]

theorem cut_formed (cut : Cut messages units) : ∀ unit ∈ units, ∃ message, IsUnit message unit := by
  induction cut with
  | nil => exact fun _ present => absurd present List.not_mem_nil
  | cons one _ ih =>
    intro unit present
    rcases List.mem_cons.mp present with rfl | later
    · exact ⟨_,one.1⟩
    · exact ih unit later

-- What a move does to the commands and to the number of a user channel.
inductive Commands (channel : UInt8) (driver after : CarrierDriver) : Prop where
  | none (same : after.fromMain = driver.fromMain)
      (number : after.threadConn.sendReliableSeqNum channel = driver.threadConn.sendReliableSeqNum channel)
  | disconnect (told : after.fromMain = driver.fromMain ++ [.disconnect reason])
      (number : after.threadConn.sendReliableSeqNum channel = driver.threadConn.sendReliableSeqNum channel)
  | message (told : after.fromMain = driver.fromMain ++ [.sendMessage message priority])
      (ran : driver.threadConn.queueMessage message priority = some after.threadConn)

theorem handOver_sender (driver : CarrierDriver) (channel : UInt8) (msg : MessageData) :
    (driver.handOver channel msg).fromMain = driver.fromMain ∧
      (driver.handOver channel msg).threadConn.sendReliableSeqNum = driver.threadConn.sendReliableSeqNum := by
  unfold CarrierDriver.handOver
  split
  · have effect := handleSystemMessage_effect driver msg.data
    generalize driver.handleSystemMessage msg.data = next at effect
    cases effect <;> exact ⟨rfl,rfl⟩
  · exact ⟨rfl,rfl⟩

theorem move_commands (user : channel ≠ systemChannel) (move : Move lz4 driver after) :
    Commands channel driver after := by
  cases move with
  | queues ran => exact .message rfl ran
  | saysDisconnect ran => exact .disconnect rfl (queueMessage_numbers (Ne.symm user) ran)
  | leaves | requests | keepsAlive | reports | fails | stops | flags => exact .none rfl rfl
  | schedules =>
    obtain ⟨_,_,same⟩ := scheduleNextRetry_timer _ driver
    rw [same]
    exact .none rfl rfl
  | prepares ran | writes ran => exact .none rfl (prepare_numbers user ran)
  | hears ran => exact .none rfl (congrFun (incoming_unchanged ran).2 channel)
  | resends =>
    rename_i now
    exact .none rfl (congrFun (resends_receiver driver.threadConn now).2 channel)
  | @hands other msg rest =>
    obtain ⟨commands,numbers⟩ := handOver_sender
      { driver with threadConn := driver.threadConn.popReady other rest } other msg
    exact .none commands (congrFun numbers channel)

theorem sender_step (home : lane systemChannel = 0) (user : channel ≠ systemChannel)
    (asked : ReliableChannel lane channel after) (move : Move lz4 driver after)
    (sends : SendsInTurn channel driver units) :
    ∃ more, SendsInTurn channel after (units ++ more) ∧
      ∀ {priority msg}, Makes driver after priority msg → OnLanes lane channel (· ∈ (units ++ more).flatten) priority msg := by
  obtain ⟨cut,follow,last⟩ := sends
  -- Without a message for the channel nothing changes.
  have same : sentOn channel after.fromMain = sentOn channel driver.fromMain →
      after.threadConn.sendReliableSeqNum channel = driver.threadConn.sendReliableSeqNum channel →
      (∀ {message priority frames}, after.fromMain = driver.fromMain ++ [.sendMessage message priority] →
        QueuedFrames driver.threadConn after.threadConn message priority frames → message.channel ≠ channel) →
      ∃ more, SendsInTurn channel after (units ++ more) ∧
        ∀ {priority msg}, Makes driver after priority msg → OnLanes lane channel (· ∈ (units ++ more).flatten) priority msg := by
    intro sent number other
    refine ⟨[],⟨?_,?_,?_⟩,fun made => makes_onLanes home user asked.lanes ?_ made⟩
    · rw [sent,List.append_nil]
      exact cut
    · rw [List.append_nil]
      exact follow
    · rw [number,List.append_nil]
      exact last
    · exact fun told frames own => absurd own (other told frames)
  cases move_commands user move with
  | none commands number =>
    refine same (by rw [commands]) number fun told => ?_
    rw [commands] at told
    simp at told
  | disconnect commands number =>
    refine same ?_ number fun told => ?_
    · rw [commands,sentOn_append]
      exact List.append_nil _
    · rw [commands] at told
      simp at told
  | @message message priority commands ran =>
    have again : ∀ {other otherPriority}, after.fromMain = driver.fromMain ++ [.sendMessage other otherPriority] →
        other = message ∧ otherPriority = priority := by
      intro other otherPriority told
      have tail := List.append_cancel_left (commands.symm.trans told)
      simp only [List.cons.injEq,CarrierCommand.sendMessage.injEq,and_true] at tail
      exact ⟨tail.1.symm,tail.2.symm⟩
    by_cases own : message.channel = channel
    · subst own
      rcases queueMessage_frames ran with ⟨refused,kept⟩ | ⟨frames,queued⟩
      · have sent : sentOn message.channel after.fromMain = sentOn message.channel driver.fromMain := by
          rw [commands,sentOn_append]
          simp [sentOn,refused]
        refine same sent (by rw [kept]) fun told frames _ => ?_
        obtain ⟨rfl,rfl⟩ := again told
        exact absurd frames.accepted refused
      · have sent : sentOn message.channel after.fromMain = sentOn message.channel driver.fromMain ++ [message] := by
          rw [commands,sentOn_append]
          simp [sentOn,queued.accepted]
        have numbered := asked.numbered message (sent ▸ List.mem_append_right _ List.mem_cons_self)
        have whole : (units ++ [frames]).flatten = units.flatten ++ frames := by simp
        refine ⟨[frames],⟨?_,?_,?_⟩,fun made => makes_onLanes home user asked.lanes ?_ made⟩
        · rw [sent]
          exact List.rel_append cut (.cons ⟨queued.unit,queued.size⟩ .nil)
        · rw [whole,chunksFollow_append,←last]
          exact ⟨follow,queued.follow numbered⟩
        · rw [whole,lastNumber_append,←last]
          exact queued.last numbered
        · intro other otherPriority others told made _ msg present
          obtain ⟨rfl,rfl⟩ := again told
          obtain rfl := appends_unique made.appends queued.appends
          rw [whole]
          exact List.mem_append_right _ present
    · refine same ?_ (queueMessage_numbers own ran) fun told frames => ?_
      · rw [commands,sentOn_append]
        simp [sentOn,own]
      · obtain ⟨rfl,rfl⟩ := again told
        exact own

theorem takesInTurn_more (more : List (List MessageData)) (takes : TakesInTurn channel driver units) :
    TakesInTurn channel driver (units ++ more) := by
  obtain ⟨⟨taken,rest,split,passed,last⟩,staged⟩ := takes
  refine ⟨⟨taken,rest ++ more,by rw [split,List.append_assoc],passed,last⟩,fun frame present => ?_⟩
  rw [List.flatten_append]
  exact List.mem_append_left _ (staged frame present)

theorem receiver_step (real : channel.toNat < maxChannels) (user : channel ≠ systemChannel)
    (few : units.flatten.length < 2^16) (follow : chunksFollow sequenceNumberMax units.flatten = true)
    (formed : ∀ unit ∈ units, ∃ message, IsUnit message unit) (takes : TakesInTurn channel driver units)
    (arriving : ∀ data ∈ after.heard, ∀ decoded, decodeDatagram lz4 data = .ok decoded →
      ∀ frame ∈ decoded.frames, frame.channel = channel → frame ∈ units.flatten)
    (move : Move lz4 driver after) : TakesInTurn channel after units := by
  unfold TakesInTurn at takes ⊢
  cases move_receives move with
  | keeps gates inboxes events =>
    rw [gates,inboxes,events]
    exact takes
  | @hears data result ran heard events =>
    obtain ⟨frames,arrives,source⟩ := incoming_channel real ran
    have pushed : InTurnSoFar units (receivedOn channel driver.toMain ++
        (driver.threadConn.toReceive channel).map (·.data))
        ((driver.threadConn.reassembler channel).push (framesOn channel frames)) := by
      refine ⟨takes.passed,fun frame present => ?_⟩
      rcases List.mem_append.mp present with old | new
      · exact takes.staged frame old
      · obtain ⟨among,own⟩ := List.mem_filter.mp new
        rcases source with rfl | ⟨decoded,opened,rfl⟩
        · exact absurd among List.not_mem_nil
        · exact arriving data heard decoded opened frame among (by simpa using own)
    cases arrives with
    | staged queue inbox =>
      rw [queue,inbox,events]
      exact pushed
    | drained queue _ inbox =>
      rw [queue,inbox user,events,List.map_append,←List.append_assoc]
      exact drain_inTurnSoFar few follow formed pushed
  | @hands other msg rest _ ready same =>
    rw [same,handOver_reassembler,handOver_toReceive,handOver_received _ user]
    by_cases own : other = channel
    · subst own
      simp only [ConnectionState.popReady,PerChannel.set_same,if_true]
      rw [ready,List.map_cons] at takes
      rwa [List.append_assoc,List.singleton_append]
    · simp only [ConnectionState.popReady,PerChannel.set_other _ _ (Ne.symm own),if_neg own,List.append_nil]
      exact takes

end Halves

-- Both halves of one channel, from the driver that sends to the other one.
def Delivering (lz4 : Lz4) (lane : UInt8 → Priority) (channel : UInt8) (side : Side) (link : Link) : Prop :=
  ∃ units, SendsInTurn channel (link side) units ∧ Ships lz4 (OnLanes lane channel (· ∈ units.flatten)) (link side) ∧
    TakesInTurn channel (link side.other) units

section Delivery
variable {lz4 : Lz4} {lane : UInt8 → Priority} {link after : Link}

theorem delivering_new (setup : Side → Setup) : Delivering lz4 lane channel side (Link.new setup) :=
  ⟨[],⟨.nil,rfl,rfl⟩,ships_new _ _ _ _,⟨⟨[],[],rfl,rfl,rfl⟩,fun _ present => absurd present List.not_mem_nil⟩⟩

theorem linkMove_delivering (undoes : Undoes lz4) (home : lane systemChannel = 0)
    (real : channel.toNat < maxChannels) (user : channel ≠ systemChannel) (move : LinkMove lz4 link after)
    (asked : ReliableChannel lane channel (after side)) (kept : Delivering lz4 lane channel side link) :
    Delivering lz4 lane channel side after := by
  obtain ⟨units,sends,ships,takes⟩ := kept
  cases move with
  | @one driver moved move network =>
    rcases side_cases moved side with rfl | rfl
    · rw [set_same] at asked
      obtain ⟨more,sends,new⟩ := sender_step home user asked move sends
      have within : ∀ {msg : MessageData}, msg ∈ units.flatten → msg ∈ (units ++ more).flatten := by
        intro msg present
        rw [List.flatten_append]
        exact List.mem_append_left _ present
      refine ⟨units ++ more,?_,?_,?_⟩
      · rw [set_same]
        exact sends
      · rw [set_same]
        exact move_ships undoes onLanes_lanes move (ships_wider ships (onLanes_wider within)) new
      · rw [set_other]
        exact takesInTurn_more more takes
    · have still : (link.set side.other driver) side = link side := by
        simpa using set_other link side.other driver
      rw [still] at asked
      refine ⟨units,?_,?_,?_⟩
      · rw [still]
        exact sends
      · rw [still]
        exact ships
      · rw [set_same]
        refine receiver_step real user ?_ sends.follow (cut_formed sends.cut) takes ?_ move
        · rw [cut_size sends.cut]
          exact asked.few
        · intro data heard decoded opened frame among own
          rw [other_other] at network
          obtain ⟨found,again,frames⟩ := ships.written data (network data heard)
          cases opened.symm.trans again
          obtain ⟨priority,kind⟩ := frames frame among
          exact kind.own own

end Delivery

-- One message whose datagram arrives twice.
def repeatedActions : List (Side × DriverAction) :=
  [(.near,.turn (.command (some (.sendMessage (userMessage 0 .reliable [7]) 2)) rounds)),
    (.far,.turn (.networkData (.ok [0x80,1,0,2,1,0,1,0,0,0,0,7]) [[0x80,1,0,2,1,0,1,0,0,0,0,7]] 0 rounds))]

end NwNetwork.Carrier
