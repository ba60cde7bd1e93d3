import NwNetwork.CarrierDriver
import NwNetwork.PartialRuns

namespace NwNetwork.Carrier
open WireReader Serialize PartialRuns

-- What a turn is made of. Every function of the driver is a sequence of these.
inductive Move (lz4 : Lz4) : CarrierDriver → CarrierDriver → Prop where
  | queues (ran : driver.threadConn.queueMessage message priority = some threadConn) :
      Move lz4 driver { driver with
        threadConn := threadConn, fromMain := driver.fromMain ++ [.sendMessage message priority] }
  | saysDisconnect (ran : driver.threadConn.queueMessage (disconnectMessage reason) 0 = some threadConn) :
      Move lz4 driver { driver with threadConn := threadConn, fromMain := driver.fromMain ++ [.disconnect reason] }
  | leaves (told : .disconnect reason ∈ driver.fromMain) :
      Move lz4 driver { driver.emit (.disconnected reason) with shutdownFlag := true, exited := true }
  | requests (role : driver.role = .initiator) (connecting : driver.threadConn.isConnecting = true) :
      Move lz4 driver driver.queueConnectRequest
  | keepsAlive (role : driver.role = .initiator) :
      Move lz4 driver { driver with threadConn := driver.threadConn.pushFirst CarrierDriver.keepAliveMessage }
  | schedules (role : driver.role = .initiator) : Move lz4 driver (driver.scheduleNextRetry now)
  | prepares (ran : driver.threadConn.prepareOutgoingDatagram lz4 now Mtu.maxDatagramSize = some (result,threadConn))
      (nothing : ∀ datagram, result ≠ .ok (some datagram)) :
      Move lz4 driver { driver with threadConn := threadConn }
  | writes (ran : driver.threadConn.prepareOutgoingDatagram lz4 now Mtu.maxDatagramSize =
        some (.ok (some datagram),threadConn)) :
      Move lz4 driver { driver with threadConn := threadConn, written := driver.written ++ [datagram] }
  | hears (ran : driver.threadConn.processIncomingDatagram lz4 data = some (result,threadConn)) :
      Move lz4 driver { driver with threadConn := threadConn, heard := driver.heard ++ [data] }
  | reports (other : ∀ source, cause ≠ .dtls source) : Move lz4 driver (driver.emit (.error cause))
  | fails : Move lz4 driver { driver.emit (.error (.dtls error)) with exited := true }
  | resends : Move lz4 driver (driver.processResends now)
  | hands (real : channel ∈ channels) (ready : driver.threadConn.toReceive channel = msg :: rest) :
      Move lz4 driver ({ driver with threadConn := driver.threadConn.popReady channel rest }.handOver channel msg)
  | stops : Move lz4 driver { driver with exited := true }
  | flags : Move lz4 driver { driver with shutdownFlag := true }

-- The timer is kept opaque: its value is a product with a large number.
theorem scheduleNextRetry_timer (now : Nat) (driver : CarrierDriver) : ∃ retries time,
    driver.scheduleNextRetry now = { driver with handshakeNumRetries := retries, handshakeRetryTime := time } :=
  ⟨_,_,rfl⟩

section Effects
variable {lz4 : Lz4} {driver after : CarrierDriver}

-- All that a system message can do.
inductive SystemEffect (driver : CarrierDriver) (data : Bytes) : CarrierDriver → Prop where
  | nothing : SystemEffect driver data driver
  | refused (cause : CarrierError) (other : ∀ source, cause ≠ .dtls source) :
      SystemEffect driver data (driver.emit (.error cause))
  | request (body : Bytes) (split : data = body ++ [SystemMessage.connectRequest]) (long : 5 ≤ data.length)
      (role : driver.role = .responder) (read : readU32 body = .ok (driver.protocolVersion,rest)) :
      SystemEffect driver data (driver.queueConnectAck.connected driver.protocolVersion)
  | ack (body : Bytes) (split : data = body ++ [SystemMessage.connectAck]) (long : 5 ≤ data.length)
      (read : readU32 body = .ok (driver.protocolVersion,rest)) :
      SystemEffect driver data (driver.connected driver.protocolVersion)
  | disconnect (body : Bytes) (split : data = body ++ [SystemMessage.disconnect]) :
      SystemEffect driver data { driver.emit (.disconnected
        (((readU8 body).toOption.map Prod.fst).bind DisconnectReason.tryFrom |>.getD .badPackets)) with
          shutdownFlag := true }

theorem dropLast_append_getLast (last : data.getLast? = some byte) : data = data.dropLast ++ [byte] := by
  obtain ⟨body,rfl⟩ := List.getLast?_eq_some_iff.mp last
  rw [List.dropLast_concat]

theorem handleSystemMessage_effect (driver : CarrierDriver) (data : Bytes) :
    SystemEffect driver data (driver.handleSystemMessage data) := by
  unfold CarrierDriver.handleSystemMessage
  cases last : data.getLast? with
  | none => exact .nothing
  | some msgId =>
    have split := dropLast_append_getLast last
    dsimp only
    split
    · rename_i request
      obtain ⟨rfl,long,role⟩ := request
      split
      · exact .nothing
      · rename_i version rest read
        split
        · exact .refused _ (by simp)
        · rename_i same
          obtain rfl := not_not.mp same
          exact .request data.dropLast split long role read
    · split
      · rename_i ack
        obtain ⟨rfl,long⟩ := ack
        split
        · exact .nothing
        · rename_i version rest read
          split
          · rename_i same
            subst same
            exact .ack data.dropLast split long read
          · exact .refused _ (by simp)
      · split
        · rename_i disconnect
          subst disconnect
          exact .disconnect data.dropLast split
        · exact .nothing

theorem sendPendingData_moves (ran : driver.sendPendingData lz4 attempts = some after) :
    Moves (Move lz4) driver after := by
  induction attempts generalizing driver with
  | nil => cases ran
  | cons attempt later ih =>
    obtain ⟨⟨result,threadConn⟩,prepared,rest⟩ := Option.bind_eq_some_iff.mp ran
    dsimp only at rest
    split at rest
    · have first : Move lz4 driver _ := .writes prepared
      split at rest
      · exact .head first (ih rest)
      · cases Option.some.inj rest
        exact .head first (.single (.reports (by simp)))
    · cases Option.some.inj rest
      exact .single (.prepares prepared (by simp))
    · cases Option.some.inj rest
      exact .single (.prepares prepared (by simp))

theorem receive_moves (ran : driver.receive lz4 data = some after) : Moves (Move lz4) driver after := by
  obtain ⟨⟨result,threadConn⟩,processed,rest⟩ := Option.bind_eq_some_iff.mp ran
  have first : Move lz4 driver _ := .hears processed
  dsimp only at rest
  split at rest
  · cases Option.some.inj rest
    exact .single first
  · cases Option.some.inj rest
    exact .head first (.single (.reports (by simp)))

theorem receiveAll_moves (ran : driver.receiveAll lz4 payloads = some after) : Moves (Move lz4) driver after := by
  induction payloads generalizing driver with
  | nil =>
    cases Option.some.inj ran
    exact .refl
  | cons data payloads ih =>
    obtain ⟨middle,first,rest⟩ := Option.bind_eq_some_iff.mp ran
    exact (receive_moves first).trans (ih rest)

-- A system message leaves the inboxes alone.
theorem handOver_toReceive (driver : CarrierDriver) (channel : UInt8) (msg : MessageData) :
    (driver.handOver channel msg).threadConn.toReceive = driver.threadConn.toReceive := by
  unfold CarrierDriver.handOver
  split
  · have effect := handleSystemMessage_effect driver msg.data
    generalize driver.handleSystemMessage msg.data = next at effect
    cases effect <;> rfl
  · rfl

theorem forwardQueue_moves (real : channel ∈ channels) (queue : driver.threadConn.toReceive channel = msgs) :
    Moves (Move lz4) driver (driver.forwardQueue channel msgs) := by
  induction msgs generalizing driver with
  | nil => exact .refl
  | cons msg msgs ih =>
    refine .head (.hands real queue) (ih ?_)
    rw [handOver_toReceive]
    exact PerChannel.set_same _ _ _

theorem forwardMessages_moves (driver : CarrierDriver) : Moves (Move lz4) driver driver.forwardMessages := by
  have all : ∀ (list : List UInt8) (driver : CarrierDriver), (∀ channel ∈ list, channel ∈ channels) →
      Moves (Move lz4) driver (list.foldl
        (fun driver channel => driver.forwardQueue channel (driver.threadConn.toReceive channel)) driver) := by
    intro list
    induction list with
    | nil => exact fun _ _ => .refl
    | cons channel list ih =>
      intro driver real
      have rest := ih (driver.forwardQueue channel (driver.threadConn.toReceive channel))
        fun other later => real other (List.mem_cons_of_mem _ later)
      exact (forwardQueue_moves (real channel List.mem_cons_self) rfl).trans rest
  exact all channels driver fun _ present => present

-- Nothing is ever taken out of the logs, and two of the fields never change.
structure Extends (driver after : CarrierDriver) : Prop where
  role : after.role = driver.role
  version : after.protocolVersion = driver.protocolVersion
  fromMain : driver.fromMain <+: after.fromMain
  toMain : driver.toMain <+: after.toMain
  heard : driver.heard <+: after.heard
  written : driver.written <+: after.written

theorem extends_refl (driver : CarrierDriver) : Extends driver driver :=
  ⟨rfl,rfl,List.prefix_rfl,List.prefix_rfl,List.prefix_rfl,List.prefix_rfl⟩

theorem extends_trans {middle : CarrierDriver} (first : Extends driver middle) (second : Extends middle after) :
    Extends driver after :=
  ⟨second.role.trans first.role,second.version.trans first.version,first.fromMain.trans second.fromMain,
    first.toMain.trans second.toMain,first.heard.trans second.heard,first.written.trans second.written⟩

theorem emit_extends (driver : CarrierDriver) (event : CarrierEvent) : Extends driver (driver.emit event) :=
  ⟨rfl,rfl,List.prefix_rfl,List.prefix_append _ _,List.prefix_rfl,List.prefix_rfl⟩

theorem system_extends (effect : SystemEffect driver data after) : Extends driver after := by
  cases effect with
  | nothing => exact extends_refl driver
  | refused => exact emit_extends driver _
  | request | ack | disconnect =>
    exact ⟨rfl,rfl,List.prefix_rfl,List.prefix_append _ _,List.prefix_rfl,List.prefix_rfl⟩

theorem handOver_extends (driver : CarrierDriver) (channel : UInt8) (msg : MessageData) :
    Extends driver (driver.handOver channel msg) := by
  unfold CarrierDriver.handOver
  split
  · exact system_extends (handleSystemMessage_effect driver msg.data)
  · exact emit_extends driver _

theorem move_extends (move : Move lz4 driver after) : Extends driver after := by
  cases move with
  | queues | saysDisconnect =>
    exact ⟨rfl,rfl,List.prefix_append _ _,List.prefix_rfl,List.prefix_rfl,List.prefix_rfl⟩
  | leaves | reports | fails => exact ⟨rfl,rfl,List.prefix_rfl,List.prefix_append _ _,List.prefix_rfl,List.prefix_rfl⟩
  | requests | keepsAlive | prepares | resends | stops | flags =>
    exact ⟨rfl,rfl,List.prefix_rfl,List.prefix_rfl,List.prefix_rfl,List.prefix_rfl⟩
  | schedules =>
    obtain ⟨_,_,same⟩ := scheduleNextRetry_timer _ driver
    rw [same]
    exact ⟨rfl,rfl,List.prefix_rfl,List.prefix_rfl,List.prefix_rfl,List.prefix_rfl⟩
  | writes => exact ⟨rfl,rfl,List.prefix_rfl,List.prefix_rfl,List.prefix_rfl,List.prefix_append _ _⟩
  | hears => exact ⟨rfl,rfl,List.prefix_rfl,List.prefix_rfl,List.prefix_append _ _,List.prefix_rfl⟩
  | hands =>
    rename_i channel msg rest _ _
    obtain ⟨role,version,fromMain,toMain,heard,written⟩ := handOver_extends
      { driver with threadConn := driver.threadConn.popReady channel rest } channel msg
    exact ⟨role,version,fromMain,toMain,heard,written⟩

theorem moves_extend (moves : Moves (Move lz4) driver after) : Extends driver after :=
  moves_relate extends_refl extends_trans move_extends moves

theorem handleHandshakeRetry_moves (connecting : driver.threadConn.isConnecting = true)
    (ran : driver.handleHandshakeRetry lz4 attempts scheduledAt = some after) : Moves (Move lz4) driver after := by
  unfold CarrierDriver.handleHandshakeRetry at ran
  split at ran
  · cases Option.some.inj ran
    exact .refl
  · rename_i initiator
    have role := not_not.mp initiator
    obtain ⟨sent,sends,same⟩ := Option.bind_eq_some_iff.mp ran
    cases Option.some.inj same
    have sends := sendPendingData_moves sends
    have still : sent.role = .initiator := (moves_extend sends).role.trans role
    exact .head (.requests role connecting) (.head (.keepsAlive role) (sends.trans (.single (.schedules still))))

theorem handleCommand_moves
    (ran : { driver with fromMain := driver.fromMain ++ [command] }.handleCommand lz4 attempts command = some after) :
    Moves (Move lz4) driver after := by
  cases command with
  | sendMessage message priority =>
    simp only [CarrierDriver.handleCommand,Option.bind_eq_bind,Option.bind_eq_some_iff] at ran
    obtain ⟨threadConn,queued,sends⟩ := ran
    exact .head (.queues queued) (sendPendingData_moves sends)
  | disconnect reason =>
    simp only [CarrierDriver.handleCommand,Option.bind_eq_bind,Option.bind_eq_some_iff] at ran
    obtain ⟨threadConn,queued,sent,sends,same⟩ := ran
    cases Option.some.inj same
    have sends := sendPendingData_moves sends
    have told : .disconnect reason ∈ sent.fromMain :=
      (moves_extend sends).fromMain.subset (List.mem_append_right _ List.mem_cons_self)
    exact .head (.saysDisconnect queued) (sends.trans (.single (.leaves told)))

theorem turn_moves (ran : driver.turn lz4 event = some after) : Moves (Move lz4) driver after := by
  unfold CarrierDriver.turn at ran
  split at ran
  · cases ran
  · split at ran
    · cases Option.some.inj ran
      exact .single .stops
    · cases event with
      | networkData first queued resendsAt attempts =>
        have behind : ∀ {middle : CarrierDriver}, Moves (Move lz4) driver middle →
            (middle.forwardMessages.processResends resendsAt).sendPendingData lz4 attempts = some after →
            Moves (Move lz4) driver after := by
          intro middle front sends
          exact ((front.trans (forwardMessages_moves middle)).tail .resends).trans (sendPendingData_moves sends)
        cases first with
        | error error =>
          dsimp only at ran
          split at ran
          · obtain ⟨drained,received,sends⟩ := Option.bind_eq_some_iff.mp ran
            exact behind (receiveAll_moves received) sends
          · cases Option.some.inj ran
            exact .single .fails
        | ok plaintext =>
          obtain ⟨drained,received,sends⟩ := Option.bind_eq_some_iff.mp ran
          exact behind (receiveAll_moves received) sends
      | command received attempts =>
        cases received with
        | none =>
          cases Option.some.inj ran
          exact .single .stops
        | some command => exact handleCommand_moves ran
      | handshakeRetry askedAt firedAt attempts scheduledAt =>
        dsimp only at ran
        split at ran
        · cases ran
        · split at ran
          · rename_i connecting
            exact handleHandshakeRetry_moves connecting ran
          · cases Option.some.inj ran
            exact .refl
      | ackCheck resendsAt attempts | heartbeat resendsAt attempts =>
        obtain ⟨sent,sends,same⟩ := Option.bind_eq_some_iff.mp ran
        cases Option.some.inj same
        exact .head .resends ((sendPendingData_moves sends).trans (forwardMessages_moves sent))

end Effects

-- What can happen to a driver: a turn, or its owner raises the flag.
inductive DriverAction where
  | turn (event : LoopEvent)
  | shutdown

def CarrierDriver.act (lz4 : Lz4) (driver : CarrierDriver) : DriverAction → Option CarrierDriver
  | .turn event => driver.turn lz4 event
  | .shutdown => some driver.shutdown

theorem act_moves {lz4 : Lz4} {driver after : CarrierDriver} (ran : driver.act lz4 action = some after) :
    Moves (Move lz4) driver after := by
  cases action with
  | turn event => exact turn_moves ran
  | shutdown =>
    cases Option.some.inj ran
    exact .single .flags

end NwNetwork.Carrier
