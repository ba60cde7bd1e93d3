import NwNetwork.CarrierHandshake

namespace NwNetwork.Carrier
open WireReader Serialize PartialRuns

-- The messages of a channel that the driver has accepted.
def sentOn (channel : UInt8) (commands : List CarrierCommand) : List MessageData :=
  commands.filterMap fun
    | .sendMessage message _ => if message.channel = channel ∧ Accepted message then some message else none
    | .disconnect _ => none

-- Messages in their lanes, and on the channel only such as these.
structure OnLanes (lane : UInt8 → Priority) (channel : UInt8) (fine : MessageData → Prop) (priority : Priority)
    (msg : MessageData) : Prop where
  counted : msg.numChunks ≠ 0
  home : lane msg.channel = priority
  own : msg.channel = channel → fine msg

-- A channel on which no message has to be cut.
structure ShortChannel (lane : UInt8 → Priority) (channel : UInt8) (driver : CarrierDriver) : Prop where
  lanes : UsesLanes lane driver
  short : ∀ message ∈ sentOn channel driver.fromMain, message.data.length ≤ Mtu.maxMessageDataSize

-- A frame that is one of these messages.
def IsOneOf (messages : List MessageData) (frame : MessageData) : Prop :=
  frame.numChunks = 1 ∧ frame.data ∈ messages.map (·.data)

section Lanes
variable {lz4 : Lz4} {driver after : CarrierDriver} {lane : UInt8 → Priority} {fine wider : MessageData → Prop}

theorem sentOn_append (channel : UInt8) (first second : List CarrierCommand) :
    sentOn channel (first ++ second) = sentOn channel first ++ sentOn channel second := List.filterMap_append

theorem sentOn_grows (channel : UInt8) (longer : first <+: second) : sentOn channel first <+: sentOn channel second := by
  obtain ⟨more,rfl⟩ := longer
  rw [sentOn_append]
  exact List.prefix_append _ _

theorem onLanes_lanes : KeepsLanes lane (OnLanes lane channel fine) := fun frame => ⟨frame.counted,frame.home⟩

theorem onLanes_wider (implies : ∀ {msg}, fine msg → wider msg) (frame : OnLanes lane channel fine priority msg) :
    OnLanes lane channel wider priority msg :=
  ⟨frame.counted,frame.home,fun own => implies (frame.own own)⟩

-- All but the frames of the application are on the system channel.
theorem makes_onLanes (home : lane systemChannel = 0) (user : channel ≠ systemChannel) (lanes : UsesLanes lane after)
    (own : ∀ {message priority frames}, after.fromMain = driver.fromMain ++ [.sendMessage message priority] →
      QueuedFrames driver.threadConn after.threadConn message priority frames → message.channel = channel →
      ∀ msg ∈ frames, fine msg)
    (made : Makes driver after priority msg) : OnLanes lane channel fine priority msg := by
  have system : ∀ {msg : MessageData}, msg.channel = systemChannel → msg.numChunks = 1 →
      OnLanes lane channel fine 0 msg := by
    intro msg same single
    refine ⟨?_,same ▸ home,fun here => absurd (here.symm.trans same) user⟩
    rw [single]
    decide
  cases made with
  | ack kind => exact system kind.channel kind.single
  | request | connectAck => exact system rfl rfl
  | @disconnect reason list _ told frames present =>
    obtain ⟨single,_,same⟩ := queuedFrames_small (disconnectMessage_small reason) frames present
    exact system same single
  | @user message priority list _ told frames present =>
    obtain ⟨_,queue⟩ := lanes message priority (told ▸ List.mem_append_right _ List.mem_cons_self)
    obtain ⟨head,tail,rfl,parts⟩ := frames.unit
    have same := parts.ofChannel msg present
    exact ⟨frames.counted msg present,same ▸ queue.symm,fun here => own told frames (same.symm.trans here) msg present⟩

-- The lanes alone make every datagram of a run one that the peer can read back.
theorem moves_inLanes (undoes : Undoes lz4) (home : lane systemChannel = 0)
    (moves : Moves (Move lz4) (CarrierDriver.new now sendCompressed version role) driver)
    (lanes : UsesLanes lane driver) : Ships lz4 (OnLanes lane 0 fun _ => True) driver := by
  induction moves with
  | refl => exact ships_new now sendCompressed version role
  | @tail middle driver _ last ih =>
    have longer := move_extends last
    have before := ih fun message priority told => lanes message priority (longer.fromMain.subset told)
    exact move_ships undoes onLanes_lanes last before fun made =>
      makes_onLanes home (by decide) lanes (fun _ _ _ _ _ => trivial) made

end Lanes

-- Whatever has been queued, resent and acknowledged so far, the peer reads out of a
-- datagram the messages that went into it.
theorem lanes_read_back {lz4 : Lz4} {lane : UInt8 → Priority} {driver : CarrierDriver} {after : ConnectionState}
    (undoes : Undoes lz4) (home : lane systemChannel = 0)
    (moves : Moves (Move lz4) (CarrierDriver.new now sendCompressed version role) driver)
    (lanes : UsesLanes lane driver)
    (ran : driver.threadConn.prepareOutgoingDatagram lz4 clock Mtu.maxDatagramSize = some (.ok (some datagram),after)) :
    ∃ queued, driver.threadConn.queueAcks clock = some queued ∧ ReadsBackPopped lz4 datagram queued after := by
  obtain ⟨queued,acks,generate⟩ := Option.bind_eq_some_iff.mp ran
  obtain ⟨decoded,opened,frames⟩ := generated_frames undoes generate
  have stored : Stored (OnLanes lane 0 fun _ => True) queued := by
    apply stored_acks (moves_inLanes undoes home moves lanes).stored acks
    intro ack kind
    refine ⟨?_,kind.channel ▸ home,fun _ => trivial⟩
    rw [kind.single]
    decide
  exact ⟨queued,acks,decoded,opened,frames.mpr (stored_legible (by decide) onLanes_lanes stored clock)⟩

theorem lanes_read_back_one_message : ∃ (driver : CarrierDriver) (datagram : Bytes) (after : ConnectionState),
    driver.fromMain = [.sendMessage (userMessage 0 .reliable [7]) 2] ∧
    driver.threadConn.prepareOutgoingDatagram storedBlocks 0 Mtu.maxDatagramSize = some (.ok (some datagram),after) ∧
    ∃ queued, driver.threadConn.queueAcks 0 = some queued ∧ ReadsBackPopped storedBlocks datagram queued after := by
  have ran : ∃ (driver : CarrierDriver) (datagram : Bytes) (after : ConnectionState),
      Moves (Move storedBlocks) (CarrierDriver.new 0 false 7 .initiator) driver ∧
      driver.fromMain = [.sendMessage (userMessage 0 .reliable [7]) 2] ∧
      driver.threadConn.prepareOutgoingDatagram storedBlocks 0 Mtu.maxDatagramSize = some (.ok (some datagram),after) :=
    ⟨_,_,_,.single (.queues rfl),rfl,rfl⟩
  obtain ⟨driver,datagram,after,moves,told,prepared⟩ := ran
  have lanes : UsesLanes oneLane driver := by
    intro message priority given
    simp only [told,List.mem_singleton,CarrierCommand.sendMessage.injEq] at given
    obtain ⟨rfl,rfl⟩ := given
    decide
  exact ⟨driver,datagram,after,told,prepared,lanes_read_back storedBlocks_undoes rfl moves lanes prepared⟩

-- Both ends of one channel: only frames that are whole messages of the sender.
structure Genuine (lz4 : Lz4) (lane : UInt8 → Priority) (channel : UInt8) (side : Side) (link : Link) : Prop where
  ships : Ships lz4 (OnLanes lane channel (IsOneOf (sentOn channel (link side).fromMain))) (link side)
  waits : Waits (IsOneOf (sentOn channel (link side).fromMain)) channel (link side.other).threadConn
  received : ∀ data ∈ receivedOn channel (link side.other).toMain,
    data ∈ (sentOn channel (link side).fromMain).map (·.data)

section Integrity
variable {lz4 : Lz4} {lane : UInt8 → Priority} {link after : Link} {driver next : CarrierDriver}

theorem isOneOf_whole (one : IsOneOf messages frame) : ¬1 < frame.numChunks.toNat := by
  rw [one.1]
  decide

theorem isOneOf_grows (longer : first <+: second) (one : IsOneOf first frame) : IsOneOf second frame :=
  ⟨one.1,(longer.map _).subset one.2⟩

theorem shortChannel_earlier (longer : Extends driver next) (asked : ShortChannel lane channel next) :
    ShortChannel lane channel driver :=
  ⟨fun message priority told => asked.lanes message priority (longer.fromMain.subset told),
    fun message present => asked.short message ((sentOn_grows channel longer.fromMain).subset present)⟩

-- A frame that a move of the sender makes is the message itself.
theorem makes_oneOf (home : lane systemChannel = 0) (user : channel ≠ systemChannel)
    (asked : ShortChannel lane channel next) (made : Makes driver next priority msg) :
    OnLanes lane channel (IsOneOf (sentOn channel next.fromMain)) priority msg := by
  refine makes_onLanes home user asked.lanes ?_ made
  intro message priority frames told queued own msg present
  have sent : message ∈ sentOn channel next.fromMain := by
    rw [told,sentOn_append]
    simp [sentOn,own,queued.accepted]
  obtain ⟨single,data,_⟩ := queuedFrames_small (asked.short message sent) queued present
  exact ⟨single,data ▸ List.mem_map_of_mem sent⟩

theorem genuine_new (setup : Side → Setup) : Genuine lz4 lane channel side (Link.new setup) :=
  ⟨ships_new _ _ _ _,⟨fun _ present => absurd present List.not_mem_nil,fun _ present => absurd present List.not_mem_nil⟩,
    fun _ present => absurd present List.not_mem_nil⟩

-- What the application is given comes out of the inbox.
theorem move_received (user : channel ≠ systemChannel) (move : Move lz4 driver next)
    (waits : Waits (IsOneOf messages) channel driver.threadConn)
    (received : ∀ data ∈ receivedOn channel driver.toMain, data ∈ messages.map (·.data)) :
    ∀ data ∈ receivedOn channel next.toMain, data ∈ messages.map (·.data) := by
  cases move_receives move with
  | keeps _ _ events => exact events channel ▸ received
  | hears _ _ events => exact events ▸ received
  | @hands other msg rest _ ready same =>
    rw [same,handOver_received _ user]
    intro data present
    rcases List.mem_append.mp present with old | new
    · exact received data old
    · split at new
      · rename_i own
        subst own
        rw [List.mem_singleton.mp new]
        exact (waits.inbox msg (ready ▸ List.mem_cons_self)).2
      · cases new

theorem linkMove_genuine (undoes : Undoes lz4) (home : lane systemChannel = 0)
    (real : channel.toNat < maxChannels) (user : channel ≠ systemChannel) (move : LinkMove lz4 link after)
    (asked : ShortChannel lane channel (after side)) (kept : Genuine lz4 lane channel side link) :
    Genuine lz4 lane channel side after := by
  obtain ⟨ships,waits,received⟩ := kept
  cases move with
  | @one driver moved move network =>
    rcases side_cases moved side with rfl | rfl
    · rw [set_same] at asked
      have longer := sentOn_grows channel (move_extends move).fromMain
      refine ⟨?_,?_,?_⟩
      · rw [set_same]
        exact move_ships undoes onLanes_lanes move (ships_wider ships (onLanes_wider (isOneOf_grows longer)))
          (makes_oneOf home user asked)
      · rw [set_same,set_other]
        exact ⟨fun frame present => isOneOf_grows longer (waits.staging frame present),
          fun msg present => isOneOf_grows longer (waits.inbox msg present)⟩
      · rw [set_same,set_other]
        exact fun data present => (longer.map _).subset (received data present)
    · have still : (link.set side.other driver) side = link side := by
        simpa using set_other link side.other driver
      rw [other_other] at network
      refine ⟨?_,?_,?_⟩
      · rw [still]
        exact ships
      · rw [still,set_same]
        refine move_waits real isOneOf_whole waits ?_ move
        intro data heard decoded opened frame among own
        obtain ⟨found,again,frames⟩ := ships.written data (network data heard)
        cases opened.symm.trans again
        obtain ⟨priority,kind⟩ := frames frame among
        exact kind.own own
      · rw [still,set_same]
        exact move_received user move waits received

end Integrity

-- An unreliable message whose datagram arrives twice.
def unreliableActions : List (Side × DriverAction) :=
  [(.near,.turn (.command (some (.sendMessage (userMessage 0 .unreliable [7]) 2)) rounds)),
    (.far,.turn (.networkData (.ok [0x80,1,0,2,0,0,1,0,0,0xff,0xff,7]) [[0x80,1,0,2,0,0,1,0,0,0xff,0xff,7]] 0 rounds))]

end NwNetwork.Carrier
