import NwNetwork.CarrierLink
import NwNetwork.CarrierArrivals
import NwNetwork.CarrierDriverDiscipline

namespace NwNetwork.Carrier
open WireReader Serialize PartialRuns

-- The system messages of a driver that has come this far.
inductive SystemFrame (driver : CarrierDriver) (msg : MessageData) : Prop where
  | ack (kind : IsAck msg)
  | request (padding : Bytes) (role : driver.role = .initiator)
      (shape : msg = connectingMessage (writeU32 driver.protocolVersion ++ padding ++ [SystemMessage.connectRequest]))
  | connectAck (role : driver.role = .responder) (announced : .connected driver.protocolVersion ∈ driver.toMain)
      (shape : msg = connectingMessage (writeU32 driver.protocolVersion ++ [SystemMessage.connectAck]))
  | disconnect (reason : DisconnectReason) (told : .disconnect reason ∈ driver.fromMain)
      (single : msg.numChunks = 1) (data : msg.data = [reason.toU8,SystemMessage.disconnect])

-- The application sends each user channel through one queue and leaves the system
-- channel to the driver.
def UsesLanes (lane : UInt8 → Priority) (driver : CarrierDriver) : Prop :=
  ∀ message priority, .sendMessage message priority ∈ driver.fromMain →
    message.channel ≠ systemChannel ∧ queueIndex priority = lane message.channel

structure Shipped (lane : UInt8 → Priority) (driver : CarrierDriver) (priority : Priority) (msg : MessageData) :
    Prop where
  counted : msg.numChunks ≠ 0
  home : lane msg.channel = priority
  system : msg.channel = systemChannel → SystemFrame driver msg

section Frames
variable {lz4 : Lz4} {driver after : CarrierDriver} {lane : UInt8 → Priority}

theorem systemFrame_extends (longer : Extends driver after) (frame : SystemFrame driver msg) :
    SystemFrame after msg := by
  obtain ⟨role,version,told,said,_,_⟩ := longer
  cases frame with
  | ack kind => exact .ack kind
  | request padding own shape => exact .request padding (role.trans own) (version ▸ shape)
  | connectAck own announced shape =>
    exact .connectAck (role.trans own) (version ▸ said.subset announced) (version ▸ shape)
  | disconnect reason asked single data => exact .disconnect reason (told.subset asked) single data

theorem systemFrame_single (frame : SystemFrame driver msg) : msg.numChunks = 1 := by
  cases frame with
  | ack kind => exact kind.single
  | request _ _ shape | connectAck _ _ shape =>
    rw [shape]
    rfl
  | disconnect _ _ single _ => exact single

theorem systemFrame_whole (frame : SystemFrame driver msg) : ¬1 < msg.numChunks.toNat := by
  rw [systemFrame_single frame]
  decide

-- A call for one small message leaves one frame with its data.
theorem queuedFrames_small (small : message.data.length ≤ Mtu.maxMessageDataSize)
    (frames : QueuedFrames state next message priority list) (present : msg ∈ list) :
    msg.numChunks = 1 ∧ msg.data = message.data ∧ msg.channel = message.channel := by
  obtain ⟨head,tail,rfl,parts⟩ := frames.unit
  obtain ⟨_,rfl⟩ := parts.whole small
  obtain rfl := List.mem_singleton.mp present
  refine ⟨BitVec.eq_of_toNat_eq parts.count,?_,parts.ofChannel msg List.mem_cons_self⟩
  have data := parts.data
  rwa [List.flatMap_singleton] at data

theorem disconnectMessage_small (reason : DisconnectReason) :
    (disconnectMessage reason).data.length ≤ Mtu.maxMessageDataSize := by
  have size : (disconnectMessage reason).data.length = 2 := rfl
  rw [size]
  decide

theorem makes_shipped (home : lane systemChannel = 0) (longer : Extends driver after) (lanes : UsesLanes lane after)
    (made : Makes driver after priority msg) : Shipped lane after priority msg := by
  have system : ∀ {msg : MessageData}, msg.channel = systemChannel → SystemFrame after msg → Shipped lane after 0 msg := by
    intro msg channel frame
    refine ⟨?_,channel ▸ home,fun _ => frame⟩
    rw [systemFrame_single frame]
    decide
  cases made with
  | ack kind => exact system kind.channel (.ack kind)
  | request role =>
    refine system rfl (.request (List.replicate driver.handshakeNumRetries.toNat 0x01) (longer.role.trans role) ?_)
    rw [longer.version]
    rfl
  | connectAck role announced =>
    refine system rfl (.connectAck (longer.role.trans role) ?_ ?_)
    · rw [longer.version]
      exact announced
    · rw [longer.version]
  | @disconnect reason list _ told frames present =>
    obtain ⟨single,data,channel⟩ := queuedFrames_small (disconnectMessage_small reason) frames present
    exact system channel (.disconnect reason told single data)
  | @user message priority list _ told frames present =>
    obtain ⟨user,own⟩ := lanes message priority (told ▸ List.mem_append_right _ List.mem_cons_self)
    obtain ⟨head,tail,rfl,parts⟩ := frames.unit
    have channel := parts.ofChannel msg present
    refine ⟨frames.counted msg present,channel ▸ own.symm,fun same => absurd ?_ user⟩
    rw [←channel,same]

theorem shipped_lanes : KeepsLanes lane (Shipped lane driver) := fun shipped => ⟨shipped.counted,shipped.home⟩

theorem shipped_extends (longer : Extends driver after) (shipped : Shipped lane driver priority msg) :
    Shipped lane after priority msg :=
  ⟨shipped.counted,shipped.home,fun system => systemFrame_extends longer (shipped.system system)⟩

end Frames

-- What a Connected event of one side says about the other one.
structure Agreed (link : Link) (side : Side) (version : BitVec 32) : Prop where
  same : version = (link side.other).protocolVersion
  roles : (link side).role ≠ (link side.other).role
  answered : (link side).role = .initiator → .connected version ∈ (link side.other).toMain

structure Handshaken (lz4 : Lz4) (lane : UInt8 → Priority) (link : Link) : Prop where
  ships : ∀ side, Ships lz4 (Shipped lane (link side)) (link side)
  waits : ∀ side, Waits (SystemFrame (link side.other)) systemChannel (link side).threadConn
  agreed : ∀ side version, .connected version ∈ (link side).toMain → Agreed link side version
  asked : ∀ side reason, .disconnected reason ∈ (link side).toMain → ∃ one, .disconnect reason ∈ (link one).fromMain

section Handshake
variable {lz4 : Lz4} {lane : UInt8 → Priority} {link after : Link}

theorem agreed_grows (longer : Grows link after) (agreed : Agreed link side version) : Agreed after side version := by
  obtain ⟨same,roles,answered⟩ := agreed
  have own := longer side
  have peer := longer side.other
  refine ⟨same.trans peer.version.symm,?_,?_⟩
  · rw [own.role,peer.role]
    exact roles
  · intro initiator
    exact peer.toMain.subset (answered (own.role.symm.trans initiator))

-- The identifier at the end of a system message, and what it stands for.
inductive FrameBody (peer : CarrierDriver) : UInt8 → Bytes → Prop where
  | ack : FrameBody peer SystemMessage.ctAcks body
  | request (role : peer.role = .initiator) :
      FrameBody peer SystemMessage.connectRequest (writeU32 peer.protocolVersion ++ padding)
  | connectAck (role : peer.role = .responder) (announced : .connected peer.protocolVersion ∈ peer.toMain) :
      FrameBody peer SystemMessage.connectAck (writeU32 peer.protocolVersion)
  | disconnect (told : .disconnect reason ∈ peer.fromMain) : FrameBody peer SystemMessage.disconnect [reason.toU8]

theorem frame_body (frame : SystemFrame peer msg) (split : msg.data = body ++ [msgId]) : FrameBody peer msgId body := by
  have parts : ∀ {other : Bytes} {byte : UInt8}, msg.data = other ++ [byte] → other = body ∧ byte = msgId := by
    intro other byte same
    obtain ⟨front,last⟩ := List.append_inj' (same.symm.trans split) rfl
    exact ⟨front,List.singleton_inj.mp last⟩
  cases frame with
  | ack kind =>
    obtain ⟨own,data⟩ := kind.ends
    obtain ⟨rfl,rfl⟩ := parts data
    exact .ack
  | request padding role shape =>
    obtain ⟨rfl,rfl⟩ := parts (congrArg MessageData.data shape)
    exact .request role
  | connectAck role announced shape =>
    obtain ⟨rfl,rfl⟩ := parts (congrArg MessageData.data shape)
    exact .connectAck role announced
  | disconnect reason told single data =>
    obtain ⟨rfl,rfl⟩ := parts (show msg.data = [reason.toU8] ++ [SystemMessage.disconnect] from data)
    exact .disconnect told

theorem version_read (read : readU32 (writeU32 version ++ padding) = .ok (expected,rest)) : expected = version := by
  rw [u32_back version padding] at read
  cases read
  rfl

section Heard
variable {peer driver next : CarrierDriver}

-- Who announces a connection has heard a request of an initiator or the answer of a
-- responder that has announced one itself.
theorem heard_connected (frame : SystemFrame peer msg) (effect : SystemEffect driver msg.data next)
    (apart : ∀ version, .connected version ∈ peer.toMain → peer.role ≠ driver.role)
    (present : .connected version ∈ next.toMain) :
    .connected version ∈ driver.toMain ∨ (version = peer.protocolVersion ∧ driver.role ≠ peer.role ∧
      (driver.role = .initiator → .connected version ∈ peer.toMain)) := by
  cases effect with
  | nothing => exact .inl present
  | refused | disconnect =>
    rcases List.mem_append.mp present with old | new
    · exact .inl old
    · exact absurd (List.mem_singleton.mp new) (by simp)
  | request body split long role read =>
    rcases List.mem_append.mp present with old | new
    · exact .inl old
    · have own := CarrierEvent.connected.inj (List.mem_singleton.mp new)
      cases frame_body frame split with
      | request initiator =>
        refine .inr ⟨own.trans (version_read read),?_,?_⟩
        · rw [role,initiator]
          decide
        · rw [role]
          exact fun impossible => nomatch impossible
  | ack body split long read =>
    rcases List.mem_append.mp present with old | new
    · exact .inl old
    · have own := CarrierEvent.connected.inj (List.mem_singleton.mp new)
      cases frame_body frame split with
      | connectAck responder announced =>
        rw [←List.append_nil (writeU32 peer.protocolVersion)] at read
        have same := own.trans (version_read read)
        exact .inr ⟨same,(apart _ announced).symm,fun _ => same ▸ announced⟩

theorem heard_disconnected (frame : SystemFrame peer msg) (effect : SystemEffect driver msg.data next)
    (present : .disconnected reason ∈ next.toMain) :
    .disconnected reason ∈ driver.toMain ∨ .disconnect reason ∈ peer.fromMain := by
  cases effect with
  | nothing => exact .inl present
  | refused | request | ack =>
    rcases List.mem_append.mp present with old | new
    · exact .inl old
    · exact absurd (List.mem_singleton.mp new) (by simp)
  | disconnect body split =>
    rcases List.mem_append.mp present with old | new
    · exact .inl old
    · have own := CarrierEvent.disconnected.inj (List.mem_singleton.mp new)
      cases frame_body frame split with
      | @disconnect asked told =>
        have read : (((readU8 [asked.toU8]).toOption.map Prod.fst).bind DisconnectReason.tryFrom |>.getD .badPackets) =
            asked := by
          cases asked <;> rfl
        rw [read] at own
        exact .inr (own ▸ told)

end Heard

-- The events of a move: those the driver had, and those it has from its application
-- or out of a system message.
theorem move_said (move : Move lz4 driver next) :
    (∀ version, .connected version ∈ next.toMain → .connected version ∈ driver.toMain) ∧
      (∀ reason, .disconnected reason ∈ next.toMain →
        .disconnected reason ∈ driver.toMain ∨ .disconnect reason ∈ driver.fromMain) ∨
    ∃ msg rest, driver.threadConn.toReceive systemChannel = msg :: rest ∧
      SystemEffect { driver with threadConn := driver.threadConn.popReady systemChannel rest } msg.data next := by
  have plain : ∀ event, next.toMain = driver.toMain ++ [event] → (∀ version, event ≠ .connected version) →
      (∀ reason, event = .disconnected reason → .disconnect reason ∈ driver.fromMain) →
      (∀ version, .connected version ∈ next.toMain → .connected version ∈ driver.toMain) ∧
      (∀ reason, .disconnected reason ∈ next.toMain →
        .disconnected reason ∈ driver.toMain ∨ .disconnect reason ∈ driver.fromMain) := by
    intro event events other told
    rw [events]
    constructor
    · intro version present
      rcases List.mem_append.mp present with old | new
      · exact old
      · exact absurd (List.mem_singleton.mp new).symm (other version)
    · intro reason present
      rcases List.mem_append.mp present with old | new
      · exact .inl old
      · exact .inr (told reason (List.mem_singleton.mp new).symm)
  cases move with
  | queues | saysDisconnect | requests | keepsAlive | prepares | writes | hears | resends | stops | flags =>
    exact .inl ⟨fun _ => id,fun _ => .inl⟩
  | schedules =>
    obtain ⟨_,_,same⟩ := scheduleNextRetry_timer _ driver
    rw [same]
    exact .inl ⟨fun _ => id,fun _ => .inl⟩
  | leaves told =>
    refine .inl (plain _ rfl (by simp) ?_)
    intro reason same
    cases same
    exact told
  | reports | fails => exact .inl (plain _ rfl (by simp) (by simp))
  | @hands channel msg rest _ real ready =>
    by_cases system : channel = systemChannel
    · subst system
      refine .inr ⟨msg,rest,ready,?_⟩
      exact handleSystemMessage_effect _ msg.data
    · have events : (CarrierDriver.handOver { driver with threadConn := driver.threadConn.popReady channel rest }
          channel msg).toMain = driver.toMain ++ [.messageReceived channel msg.data] := by
        unfold CarrierDriver.handOver
        rw [if_neg system]
        rfl
      exact .inl (plain _ events (by simp) (by simp))

theorem handshaken_new (setup : Side → Setup) : Handshaken lz4 lane (Link.new setup) :=
  ⟨fun _ => ships_new _ _ _ _,fun _ => ⟨fun _ present => absurd present List.not_mem_nil,
    fun _ present => absurd present List.not_mem_nil⟩,
    fun _ _ present => absurd present List.not_mem_nil,fun _ _ present => absurd present List.not_mem_nil⟩

theorem linkMove_handshaken (undoes : Undoes lz4) (home : lane systemChannel = 0) (move : LinkMove lz4 link after)
    (lanes : ∀ side, UsesLanes lane (after side)) (kept : Handshaken lz4 lane link) : Handshaken lz4 lane after := by
  have grows := linkMove_grows move
  cases move with
  | @one driver side move network =>
    have own : UsesLanes lane driver := by simpa using lanes side
    have longer := move_extends move
    -- What the system message at the head of the inbox can be.
    have heard : ∀ {msg rest}, (link side).threadConn.toReceive systemChannel = msg :: rest →
        SystemFrame (link side.other) msg :=
      fun ready => (kept.waits side).inbox _ (ready ▸ List.mem_cons_self)
    refine ⟨?_,?_,?_,?_⟩
    · intro one
      rcases side_cases one side with rfl | rfl
      · rw [set_same]
        exact move_ships undoes shipped_lanes move (ships_wider (kept.ships one) (shipped_extends longer))
          (makes_shipped home longer own)
      · rw [set_other]
        exact kept.ships _
    · intro one
      rcases side_cases one side with rfl | rfl
      · rw [set_same,set_other]
        refine move_waits (by decide) systemFrame_whole (kept.waits one) ?_ move
        intro data present decoded opened frame among system
        obtain ⟨found,again,shipped⟩ := (kept.ships one.other).written data (network data present)
        cases opened.symm.trans again
        obtain ⟨priority,kind⟩ := shipped frame among
        exact kind.system system
      · rw [set_other,other_other,set_same]
        obtain ⟨staging,inbox⟩ := kept.waits side.other
        rw [other_other] at staging inbox
        exact ⟨fun frame present => systemFrame_extends longer (staging frame present),
          fun msg present => systemFrame_extends longer (inbox msg present)⟩
    · intro one version present
      rcases side_cases one side with rfl | rfl
      · rw [set_same] at present
        rcases move_said move with ⟨connected,_⟩ | ⟨msg,rest,ready,effect⟩
        · exact agreed_grows grows (kept.agreed one version (connected version present))
        · have apart : ∀ version, .connected version ∈ (link one.other).toMain → (link one.other).role ≠ (link one).role := by
            intro other announced
            simpa using (kept.agreed one.other other announced).roles
          rcases heard_connected (heard ready) effect apart present with old | ⟨same,roles,answered⟩
          · exact agreed_grows grows (kept.agreed one version old)
          · exact agreed_grows grows ⟨same,roles,answered⟩
      · rw [set_other] at present
        exact agreed_grows grows (kept.agreed _ version present)
    · have later : ∀ {reason}, (∃ one, .disconnect reason ∈ (link one).fromMain) →
          ∃ one, .disconnect reason ∈ (link.set side driver one).fromMain :=
        fun ⟨one,told⟩ => ⟨one,(grows one).fromMain.subset told⟩
      intro one reason present
      rcases side_cases one side with rfl | rfl
      · rw [set_same] at present
        rcases move_said move with ⟨_,disconnected⟩ | ⟨msg,rest,ready,effect⟩
        · rcases disconnected reason present with old | told
          · exact later (kept.asked one reason old)
          · exact later ⟨one,told⟩
        · rcases heard_disconnected (heard ready) effect present with old | told
          · exact later (kept.asked one reason old)
          · exact later ⟨one.other,told⟩
      · rw [set_other] at present
        exact later (kept.asked _ reason present)

theorem usesLanes_earlier (grows : Grows link after) (lanes : ∀ side, UsesLanes lane (after side)) :
    ∀ side, UsesLanes lane (link side) :=
  fun side message priority told => lanes side message priority ((grows side).fromMain.subset told)

theorem run_handshaken (undoes : Undoes lz4) (home : lane systemChannel = 0)
    (ran : run (Link.act lz4) (Link.new setup) actions = some link) (lanes : ∀ side, UsesLanes lane (link side)) :
    Handshaken lz4 lane link :=
  linkMoves_keep usesLanes_earlier (linkMove_handshaken undoes home) (run_moves link_act_moves ran)
    (handshaken_new setup) lanes

theorem linkMove_disciplined (move : LinkMove lz4 link after) (kept : ∀ side, Disciplined (link side)) :
    ∀ side, Disciplined (after side) := by
  cases move with
  | one side move network =>
    intro one
    rcases side_cases one side with rfl | rfl
    · rw [set_same]
      exact move_disciplined move (kept one)
    · rw [set_other]
      exact kept _

theorem run_disciplined (ran : run (Link.act lz4) (Link.new setup) actions = some link) (side : Side) :
    Disciplined (link side) :=
  moves_keep linkMove_disciplined (run_moves link_act_moves ran) (fun _ => disciplined_new _ _ _ _) side

end Handshake

-- Whatever the network does, a side that takes itself for connected has the version
-- of the other one and the opposite role, and an initiator connects only after the
-- responder has.
theorem handshake_agreement {lz4 : Lz4} {lane : UInt8 → Priority} {link : Link} (undoes : Undoes lz4)
    (home : lane systemChannel = 0) (ran : run (Link.act lz4) (Link.new setup) actions = some link)
    (lanes : ∀ side, UsesLanes lane (link side)) (side : Side)
    (connected : (link side).threadConn.isConnecting = false) :
    (setup side).version = (setup side.other).version ∧ (setup side).role ≠ (setup side.other).role ∧
      ((setup side).role = .initiator → (link side.other).threadConn.isConnecting = false) := by
  have grows := linkMoves_grow (run_moves link_act_moves ran)
  have own := run_disciplined ran side
  obtain ⟨version,announced⟩ := own.connected.mp connected
  obtain ⟨same,roles,answered⟩ := (run_handshaken undoes home ran lanes).agreed side version announced
  rw [own.versions version announced,(grows side).version,(grows side.other).version] at same
  rw [(grows side).role,(grows side.other).role] at roles
  refine ⟨same,roles,fun initiator => ?_⟩
  have told := answered ((grows side).role.trans initiator)
  exact (run_disciplined ran side.other).connected.mpr ⟨version,told⟩

-- A client and a server of one version, and the two datagrams of their handshake.
def clientAndServer (side : Side) : Setup :=
  ⟨0,false,7,match side with | .near => .initiator | .far => .responder⟩

def oneLane (channel : UInt8) : Priority := if channel = systemChannel then queueIndex 0 else queueIndex 2

def rounds : List Attempt := [⟨0,none⟩,⟨0,none⟩]

def requestDatagram : Bytes :=
  [0x80,1,0,2,0xa0,0,5,3,0,0,0xff,0xff,0,0,0,7,1,0x80,0,2,0,0,0xff,0xff,0x20,6]

def answerDatagram : Bytes :=
  [0x80,1,0,2,0xa0,0,5,3,0,0,0xff,0xff,0,0,0,7,2,0,0,4,0,0,0xff,0xff,0,0,2,6]

def handshakeActions : List (Side × DriverAction) := [(.near,.turn (.handshakeRetry 0 0 rounds 0)),
  (.far,.turn (.networkData (.ok requestDatagram) [] 0 rounds)),
  (.near,.turn (.networkData (.ok answerDatagram) [] 0 rounds))]

theorem storedBlocks_undoes : Undoes storedBlocks := storedBlocks_undone (by decide)

theorem handshake_agreement_connects : ∃ link, run (Link.act storedBlocks) (Link.new clientAndServer) handshakeActions =
    some link ∧ (link .near).threadConn.isConnecting = false ∧ (link .far).threadConn.isConnecting = false := by
  have ran : ∃ link, run (Link.act storedBlocks) (Link.new clientAndServer) handshakeActions = some link ∧
      (link .near).threadConn.isConnecting = false ∧ ∀ side, (link side).fromMain = [] :=
    ⟨_,rfl,rfl,fun side => by cases side <;> rfl⟩
  obtain ⟨link,ran,connected,silent⟩ := ran
  have lanes : ∀ side, UsesLanes oneLane (link side) := by
    intro side message priority told
    rw [silent] at told
    exact absurd told List.not_mem_nil
  exact ⟨link,ran,connected,(handshake_agreement storedBlocks_undoes rfl ran lanes .near connected).2.2 rfl⟩

def partingActions : List (Side × DriverAction) := [(.near,.turn (.command (some (.disconnect .shuttingDown)) rounds)),
  (.far,.turn (.networkData (.ok [0x80,1,0,2,0x20,0,2,3,0,0,0xff,0xff,7,3]) [] 0 rounds))]

end NwNetwork.Carrier
