import NwNetwork.CarrierDriverMoves
import NwNetwork.CarrierUnchanged

namespace NwNetwork.Carrier
open WireReader Serialize PartialRuns

-- The events behind which a driver has nothing more to say.
def Closes : CarrierEvent → Prop
  | .disconnected _ => True
  | .error (.dtls _) => True
  | _ => False

structure Disciplined (driver : CarrierDriver) : Prop where
  connected : driver.threadConn.isConnecting = false ↔ ∃ version, .connected version ∈ driver.toMain
  versions : ∀ version, .connected version ∈ driver.toMain → version = driver.protocolVersion
  closed : (∃ event ∈ driver.toMain, Closes event) → driver.shutdownFlag = true ∨ driver.exited = true

-- Neither the application nor the transport is given anything.
structure Silent (driver after : CarrierDriver) : Prop where
  toMain : after.toMain = driver.toMain
  written : after.written = driver.written
  fromMain : after.fromMain = driver.fromMain

theorem silent_refl (driver : CarrierDriver) : Silent driver driver := ⟨rfl,rfl,rfl⟩

theorem silent_trans (first : Silent driver middle) (second : Silent middle after) : Silent driver after :=
  ⟨second.toMain.trans first.toMain,second.written.trans first.written,second.fromMain.trans first.fromMain⟩

section Moves
variable {lz4 : Lz4} {driver after : CarrierDriver}

theorem disciplined_new (now : Nat) (sendCompressed : Bool) (version : BitVec 32) (role : CarrierRole) :
    Disciplined (CarrierDriver.new now sendCompressed version role) := by
  constructor <;> simp [CarrierDriver.new,ConnectionState.new]

-- Work on the connection behind the driver's back.
theorem disciplined_work (kept : Disciplined driver)
    (connecting : after.threadConn.isConnecting = driver.threadConn.isConnecting)
    (events : after.toMain = driver.toMain) (version : after.protocolVersion = driver.protocolVersion)
    (flag : driver.shutdownFlag = true → after.shutdownFlag = true) (gone : driver.exited = true → after.exited = true) :
    Disciplined after := by
  constructor
  · rw [connecting,events]
    exact kept.connected
  · rw [events,version]
    exact kept.versions
  · rw [events]
    exact fun closed => (kept.closed closed).imp flag gone

theorem disciplined_emit (kept : Disciplined driver) (plain : ∀ version, event ≠ .connected version)
    (speaks : ¬Closes event) : Disciplined (driver.emit event) := by
  have other : ∀ version, .connected version ∈ (driver.emit event).toMain ↔ .connected version ∈ driver.toMain := by
    simp [CarrierDriver.emit,Ne.symm (plain _)]
  constructor
  · simp only [other]
    exact kept.connected
  · simp only [other]
    exact kept.versions
  · rintro ⟨found,present,closes⟩
    apply kept.closed
    rcases List.mem_append.mp present with old | new
    · exact ⟨found,old,closes⟩
    · rw [List.mem_singleton.mp new] at closes
      exact absurd closes speaks

-- An event that ends the driver's work comes with a flag.
theorem disciplined_close (kept : Disciplined driver) (plain : ∀ version, event ≠ .connected version)
    (connecting : after.threadConn.isConnecting = driver.threadConn.isConnecting)
    (events : after.toMain = driver.toMain ++ [event]) (version : after.protocolVersion = driver.protocolVersion)
    (ends : after.shutdownFlag = true ∨ after.exited = true) : Disciplined after := by
  have other : ∀ version, .connected version ∈ after.toMain ↔ .connected version ∈ driver.toMain := by
    simp [events,Ne.symm (plain _)]
  constructor
  · simpa only [other,connecting] using kept.connected
  · simpa only [other,version] using kept.versions
  · exact fun _ => ends

theorem disciplined_connected (kept : Disciplined driver) : Disciplined (driver.connected driver.protocolVersion) := by
  constructor
  · exact iff_of_true rfl ⟨_,List.mem_append_right _ List.mem_cons_self⟩
  · intro version present
    rcases List.mem_append.mp present with old | new
    · exact kept.versions version old
    · exact CarrierEvent.connected.inj (List.mem_singleton.mp new)
  · rintro ⟨found,present,closes⟩
    apply kept.closed
    rcases List.mem_append.mp present with old | new
    · exact ⟨found,old,closes⟩
    · rw [List.mem_singleton.mp new] at closes
      exact absurd closes id

theorem disciplined_system (kept : Disciplined driver) (effect : SystemEffect driver data after) :
    Disciplined after := by
  cases effect with
  | nothing => exact kept
  | refused cause other =>
    apply disciplined_emit kept (by simp)
    cases cause with
    | dtls source => exact absurd rfl (other source)
    | _ => exact id
  | request =>
    have queued : Disciplined driver.queueConnectAck := disciplined_work kept rfl rfl rfl id id
    exact disciplined_connected queued
  | ack => exact disciplined_connected kept
  | disconnect => exact disciplined_close kept (by simp) rfl rfl rfl (.inl rfl)

theorem move_disciplined (move : Move lz4 driver after) (kept : Disciplined driver) : Disciplined after := by
  cases move with
  | queues ran | saysDisconnect ran =>
    exact disciplined_work kept (queueMessage_receiver ran).isConnecting rfl rfl id id
  | leaves => exact disciplined_close kept (by simp) rfl rfl rfl (.inl rfl)
  | requests | keepsAlive => exact disciplined_work kept rfl rfl rfl id id
  | schedules =>
    obtain ⟨_,_,same⟩ := scheduleNextRetry_timer _ driver
    rw [same]
    exact disciplined_work kept rfl rfl rfl id id
  | resends => exact disciplined_work kept (resends_receiver _ _).1.isConnecting rfl rfl id id
  | prepares ran | writes ran => exact disciplined_work kept (prepare_receiver ran).isConnecting rfl rfl id id
  | hears ran => exact disciplined_work kept (incoming_unchanged ran).1 rfl rfl id id
  | reports other =>
    rename_i cause
    apply disciplined_emit kept (by simp)
    cases cause with
    | dtls source => exact absurd rfl (other source)
    | _ => exact id
  | fails => exact disciplined_close kept (by simp) rfl rfl rfl (.inr rfl)
  | hands =>
    rename_i channel msg rest _ _
    have popped : Disciplined { driver with threadConn := driver.threadConn.popReady channel rest } :=
      disciplined_work kept rfl rfl rfl id id
    unfold CarrierDriver.handOver
    split
    · exact disciplined_system popped (handleSystemMessage_effect _ _)
    · exact disciplined_emit popped (by simp) id
  | stops => exact disciplined_work kept rfl rfl rfl id fun _ => rfl
  | flags => exact disciplined_work kept rfl rfl rfl (fun _ => rfl) id

theorem moves_disciplined (moves : Moves (Move lz4) driver after) (kept : Disciplined driver) : Disciplined after :=
  moves_keep move_disciplined moves kept

-- With a flag up a turn can only leave the loop, and a driver that has left takes none.
theorem act_silent (closed : driver.shutdownFlag = true ∨ driver.exited = true)
    (ran : driver.act lz4 action = some after) :
    Silent driver after ∧ (after.shutdownFlag = true ∨ after.exited = true) := by
  cases action with
  | turn event =>
    simp only [CarrierDriver.act,CarrierDriver.turn] at ran
    split at ran
    · cases ran
    · rename_i running
      rw [if_pos (closed.resolve_right running)] at ran
      cases Option.some.inj ran
      exact ⟨⟨rfl,rfl,rfl⟩,.inr rfl⟩
  | shutdown =>
    cases Option.some.inj ran
    exact ⟨⟨rfl,rfl,rfl⟩,.inl rfl⟩

theorem run_silent (closed : driver.shutdownFlag = true ∨ driver.exited = true)
    (ran : run (CarrierDriver.act lz4) driver actions = some after) : Silent driver after := by
  have keeps : ∀ {state action next}, state.act lz4 action = some next →
      Silent driver state ∧ (state.shutdownFlag = true ∨ state.exited = true) →
      Silent driver next ∧ (next.shutdownFlag = true ∨ next.exited = true) := by
    rintro state action next one ⟨before,stopped⟩
    obtain ⟨silent,still⟩ := act_silent stopped one
    exact ⟨silent_trans before silent,still⟩
  have start : Silent driver driver ∧ (driver.shutdownFlag = true ∨ driver.exited = true) :=
    ⟨silent_refl driver,closed⟩
  exact (run_keeps keeps ran start).1

end Moves

-- Whatever arrives, a driver leaves the connecting phase with a Connected event of
-- its own version, and after the turn with its last event it does nothing more.
theorem driver_discipline {lz4 : Lz4} {middle final : CarrierDriver}
    (front : run (CarrierDriver.act lz4) (CarrierDriver.new now sendCompressed version role) before = some middle)
    (behind : run (CarrierDriver.act lz4) middle after = some final) :
    (middle.threadConn.isConnecting = false ↔ .connected version ∈ middle.toMain) ∧
      (∀ other, .connected other ∈ middle.toMain → other = version) ∧
      ((∃ event ∈ middle.toMain, Closes event) → Silent middle final) := by
  have moves := run_moves act_moves front
  have kept := moves_disciplined moves (disciplined_new now sendCompressed version role)
  have own : middle.protocolVersion = version := (moves_extend moves).version
  refine ⟨?_,?_,fun closed => run_silent (kept.closed closed) behind⟩
  · rw [kept.connected]
    constructor
    · rintro ⟨other,present⟩
      have same := kept.versions other present
      rw [own] at same
      exact same ▸ present
    · exact fun present => ⟨version,present⟩
  · intro other present
    exact (kept.versions other present).trans own

-- The peer disconnects, the driver leaves its loop in the next turn.
theorem driver_discipline_peer_leaves : ∃ middle final, .disconnected .shuttingDown ∈ middle.toMain ∧
    final.exited = true ∧ Silent middle final := by
  have front : ∃ middle final, run (CarrierDriver.act storedBlocks) (CarrierDriver.new 0 false 7 .responder)
        [.turn (.networkData (.ok [0x80,1,0,2,0x20,0,2,3,0,0,0xff,0xff,7,3]) [] 0 [⟨0,none⟩,⟨0,none⟩])] = some middle ∧
      run (CarrierDriver.act storedBlocks) middle [.turn (.ackCheck 0 [])] = some final ∧
      middle.toMain = [.disconnected .shuttingDown] ∧ final.exited = true := ⟨_,_,rfl,rfl,rfl,rfl⟩
  obtain ⟨middle,final,front,behind,said,gone⟩ := front
  have heard : .disconnected .shuttingDown ∈ middle.toMain := by simp [said]
  exact ⟨middle,final,heard,gone,(driver_discipline front behind).2.2 ⟨_,heard,trivial⟩⟩

end NwNetwork.Carrier
