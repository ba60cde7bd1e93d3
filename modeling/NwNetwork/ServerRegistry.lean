import NwNetwork.ServerPeers
import NwNetwork.StateRuns

namespace NwNetwork.Gridmate
open WireReader Serialize Carrier StateRuns

-- How many Disconnected events of a session a task has still to send.
def DriverPhase.reports (session : SessionId) : DriverPhase → Nat
  | .removing taken _ => if taken = session then 1 else 0
  | .sending events _ _ => events.countP (Event.disconnects session)
  | _ => 0

def BridgePhase.reports (session : SessionId) : BridgePhase Addr → Nat
  | .removing taken _ => if taken = session then 1 else 0
  | .sending event => if event.disconnects session then 1 else 0
  | _ => 0

def DriverPhase.removes (session : SessionId) : DriverPhase → Bool
  | .removing taken _ => taken == session
  | _ => false

def BridgePhase.removes (session : SessionId) : BridgePhase Addr → Bool
  | .removing taken _ => taken == session
  | _ => false

-- The actions that end a driver through `peers.remove`, and those that report the
-- session registered at its address.
def removesEntry : DriverPhase → DriverAction → Bool
  | .connecting,.readyFailed _ => true
  | .running,.inboundClosed => true
  | .running,.outbound _ (some _) => true
  | _,_ => false

def reportsEntry : DriverPhase → DriverAction → Bool
  | .running,.inbound (.disconnected _) => true
  | phase,action => removesEntry phase action

namespace Server
variable {Addr : Type} [DecidableEq Addr]

def outstanding (server : Server Addr) (session : SessionId) : Nat :=
  server.events.countP (Event.disconnects session) + server.bridge.reports session +
    (server.drivers.map fun task => task.phase.reports session).sum

-- A task has taken the session's entry and not yet removed the session.
def removing (server : Server Addr) (session : SessionId) : Bool :=
  server.bridge.removes session || server.drivers.any fun task => task.phase.removes session

def undeparted (server : Server Addr) (peer_addr : Addr) : Bool :=
  match server.peers.sessionFor peer_addr with
  | some session => !server.departed session
  | none => true

def ownEntry (server : Server Addr) (task : Driver Addr) : Bool :=
  match task.session,server.peers.sessionFor task.peerAddr with
  | some own,some session => own == session
  | _,_ => true

-- What has to hold before an action: an address is registered only when it has no
-- entry and the counter has not come round; the session is put in the second index
-- only while its entry stands or its removal is still to come; a driver removes no
-- other session's entry; and no session is taken or reported once a driver has
-- passed on its carrier's Disconnected.
def admissible (server : Server Addr) : ServerAction Addr → Bool
  | .bridge =>
    match server.bridge with
    | .registering peer_addr _ => decide (server.registered < 2^64) && (server.peers.byAddr peer_addr).isNone
    | .inserting peer_addr session =>
      server.peers.sessionFor peer_addr == some session || server.removing session
    | _ => true
  | .event (.disconnected peer_addr _) =>
    match server.bridge with
    | .waiting => server.undeparted peer_addr
    | _ => true
  | .driver driver action =>
    match server.drivers[driver]? with
    | none => true
    | some task =>
      (!removesEntry task.phase action || server.ownEntry task) &&
        (!reportsEntry task.phase action || server.undeparted task.peerAddr)
  | _ => true

-- No task is between the operations of a registration or a removal.
structure Quiet (server : Server Addr) : Prop where
  registered : ∀ peer_addr session, server.bridge ≠ .inserting peer_addr session
  removed : ∀ session, server.removing session = false

structure Sound (server : Server Addr) : Prop where
  addrHeld : ∀ peer_addr session, server.peers.sessionFor peer_addr = some session →
    server.peers.peerAddrFor session = some peer_addr ∨ server.bridge = .inserting peer_addr session
  sessionHeld : ∀ session peer_addr, server.peers.peerAddrFor session = some peer_addr →
    server.peers.sessionFor peer_addr = some session ∨ server.removing session = true
  inverse : server.Quiet → ∀ session peer_addr,
    server.peers.peerAddrFor session = some peer_addr ↔ server.peers.sessionFor peer_addr = some session
  disconnectedOnce : ∀ session, server.events.countP (Event.disconnects session) ≤ 1

def RemovesNewer (server : Server Addr) (action : ServerAction Addr) : Prop :=
  ∃ driver act task own session, action = .driver driver act ∧ server.drivers[driver]? = some task ∧
    removesEntry task.phase act = true ∧ task.session = some own ∧
    server.peers.sessionFor task.peerAddr = some session ∧ own < session

-- The two indexes up to what is in progress, and the Disconnected events that were
-- sent or are still to be sent.
structure Ledger (server : Server Addr) : Prop where
  addrHeld : ∀ peer_addr session, server.peers.sessionFor peer_addr = some session →
    server.peers.bySession session = some peer_addr ∨ server.bridge = .inserting peer_addr session
  sessionHeld : ∀ session peer_addr, server.peers.bySession session = some peer_addr →
    server.peers.sessionFor peer_addr = some session ∨ server.removing session = true
  apart : ∀ peer_addr other session, server.peers.sessionFor peer_addr = some session →
    server.peers.sessionFor other = some session → peer_addr = other
  standing : ∀ peer_addr session, server.peers.sessionFor peer_addr = some session → server.removing session = false
  registeredBelow : ∀ peer_addr session, server.peers.sessionFor peer_addr = some session → session < server.registered
  sessionsBelow : ∀ session peer_addr, server.peers.bySession session = some peer_addr → session < server.registered
  insertingBelow : ∀ peer_addr session, server.bridge = .inserting peer_addr session → session < server.registered
  counted : server.peers.nextSession = server.registered % 2^64
  unannounced : ∀ session, server.registered ≤ session → server.outstanding session = 0
  unreported : ∀ peer_addr session, server.peers.sessionFor peer_addr = some session →
    server.departed session = false → server.outstanding session = 0
  once : ∀ session, server.outstanding session ≤ 1

end Server

theorem modify_split {list : List α} (found : list[place]? = some entry) (change : α → α) :
    ∃ before after, list = before ++ entry :: after ∧ list.modify place change = before ++ change entry :: after := by
  induction list generalizing place with
  | nil => cases found
  | cons head rest ih =>
    cases place with
    | zero => cases found; exact ⟨[],rest,rfl,rfl⟩
    | succ place =>
      obtain ⟨before,after,split,modified⟩ := ih found
      exact ⟨head :: before,after,congrArg _ split,congrArg (head :: ·) modified⟩

theorem map_modify {f : α → β} {change : α → α} (same : ∀ entry, f (change entry) = f entry) (list : List α) (place : Nat) :
    (list.modify place change).map f = list.map f := by
  induction list generalizing place with
  | nil => rw [List.modify_nil]
  | cons head rest ih =>
    cases place with
    | zero => exact congrArg (· :: rest.map f) (same head)
    | succ place => exact congrArg (f head :: ·) (ih place)

theorem BridgePhase.removes_reports {phase : BridgePhase Addr} (removes : phase.removes session = true) :
    phase.reports session = 1 := by
  cases phase with
  | removing taken reason => exact if_pos (beq_iff_eq.mp removes)
  | _ => cases removes

theorem DriverPhase.removes_reports {phase : DriverPhase} (removes : phase.removes session = true) :
    phase.reports session = 1 := by
  cases phase with
  | removing taken reason => exact if_pos (beq_iff_eq.mp removes)
  | _ => cases removes

namespace Server

theorem removing_outstanding {server : Server Addr} (removing : server.removing session = true) :
    0 < server.outstanding session := by
  unfold outstanding
  rcases Bool.or_eq_true_iff.mp removing with bridge | driver
  · have reports := BridgePhase.removes_reports bridge
    omega
  · obtain ⟨task,member,removes⟩ := List.any_eq_true.mp driver
    have reports := DriverPhase.removes_reports removes
    obtain ⟨before,after,split⟩ := List.append_of_mem member
    rw [split,List.map_append,List.map_cons,List.sum_append,List.sum_cons]
    omega

-- A driver that moves on changes what it still reports and removes, and nothing
-- about the others.
theorem outstanding_setPhase (server : Server Addr) (found : server.drivers[driver]? = some task) (phase : DriverPhase)
    (session : SessionId) : (server.setPhase driver phase).outstanding session + task.phase.reports session =
      server.outstanding session + phase.reports session := by
  obtain ⟨before,after,split,modified⟩ := modify_split found fun task => {task with phase := phase}
  unfold outstanding setPhase
  dsimp only
  rw [modified,split]
  simp only [List.map_append,List.map_cons,List.sum_append,List.sum_cons]
  omega

theorem removing_setPhase (server : Server Addr) (found : server.drivers[driver]? = some task) (phase : DriverPhase)
    (session : SessionId) : ((server.setPhase driver phase).removing session || task.phase.removes session) =
      (server.removing session || phase.removes session) := by
  obtain ⟨before,after,split,modified⟩ := modify_split found fun task => {task with phase := phase}
  unfold removing setPhase
  dsimp only
  rw [modified,split]
  simp only [List.any_append,List.any_cons]
  cases server.bridge.removes session <;> cases phase.removes session <;> cases task.phase.removes session <;> simp

theorem removing_map (server : Server Addr) (session : SessionId) : server.removing session =
    (server.bridge.removes session || (server.drivers.map fun task => task.phase.removes session).any id) := by
  unfold removing
  rw [List.any_map]
  rfl

theorem undeparted_held {server : Server Addr} (undeparted : server.undeparted peer_addr = true)
    (held : server.peers.sessionFor peer_addr = some session) : server.departed session = false := by
  unfold Server.undeparted at undeparted
  rw [held] at undeparted
  exact Bool.not_eq_true' _ |>.mp undeparted

theorem disconnected_reports (own session : SessionId) (reason : String) :
    [Event.disconnected own reason].countP (Event.disconnects session) = if own = session then 1 else 0 := by
  rw [List.countP_singleton]
  exact if_congr beq_iff_eq rfl rfl

theorem typed_reports (schema : NetworkSchema) (own session : SessionId) (channel : UInt8) (data : Bytes) :
    (typedEvent schema own channel data).toList.countP (Event.disconnects session) = 0 := by
  rw [List.countP_eq_zero]
  intro event member
  have typed := Option.mem_toList.mp member
  unfold typedEvent at typed
  split at typed
  · obtain ⟨type_index,_,rfl⟩ := Option.map_eq_some_iff.mp typed
    exact Bool.false_ne_true
  · cases typed
  · cases typed

theorem inbound_reports (quiet : ∀ reason, msg ≠ .disconnected reason) (schema : NetworkSchema) (own session : SessionId) :
    (inboundEvents schema own msg).1.countP (Event.disconnects session) = 0 := by
  cases msg with
  | disconnected reason => exact absurd rfl (quiet reason)
  | connected version => rfl
  | error description => rfl
  | messageReceived channel data =>
    unfold inboundEvents
    dsimp only
    split
    · rfl
    · split
      · rfl
      · split
        · exact (List.countP_cons_of_neg Bool.false_ne_true).trans (typed_reports schema own session channel data)
        · rfl

-- A step that leaves the indexes and the removals as they are, and reports nothing new.
theorem Ledger.transfer {server next : Server Addr} (ledger : Ledger server) (peers : next.peers = server.peers)
    (registered : next.registered = server.registered) (departed : next.departed = server.departed)
    (inserting : ∀ peer_addr session, next.bridge = .inserting peer_addr session ↔
      server.bridge = .inserting peer_addr session)
    (removing : ∀ session, next.removing session = server.removing session)
    (outstanding : ∀ session, next.outstanding session ≤ server.outstanding session) : Ledger next := by
  constructor
  · intro peer_addr session held
    rw [peers] at held ⊢
    exact (ledger.addrHeld peer_addr session held).imp_right (inserting peer_addr session).mpr
  · intro session peer_addr held
    rw [peers] at held ⊢
    rw [removing]
    exact ledger.sessionHeld session peer_addr held
  · rw [peers]
    exact ledger.apart
  · intro peer_addr session held
    rw [peers] at held
    rw [removing]
    exact ledger.standing peer_addr session held
  · rw [peers,registered]
    exact ledger.registeredBelow
  · rw [peers,registered]
    exact ledger.sessionsBelow
  · intro peer_addr session phase
    rw [registered]
    exact ledger.insertingBelow peer_addr session ((inserting peer_addr session).mp phase)
  · rw [peers,registered]
    exact ledger.counted
  · intro session above
    rw [registered] at above
    have none_before := ledger.unannounced session above
    exact Nat.le_zero.mp (none_before ▸ outstanding session)
  · intro peer_addr session held stays
    rw [peers] at held
    rw [departed] at stays
    have none_before := ledger.unreported peer_addr session held stays
    exact Nat.le_zero.mp (none_before ▸ outstanding session)
  · intro session
    exact Nat.le_trans (outstanding session) (ledger.once session)

-- `remove`'s second operation: the session leaves its index, and the Disconnected
-- that was owed is to be sent.
theorem Ledger.dropped {server next : Server Addr} (ledger : Ledger server) (leaving : server.removing own = true)
    (peers : next.peers = server.peers.removeSession own) (registered : next.registered = server.registered)
    (departed : next.departed = server.departed)
    (inserting : ∀ peer_addr session, next.bridge = .inserting peer_addr session ↔
      server.bridge = .inserting peer_addr session)
    (fewer : ∀ session, next.removing session = true → server.removing session = true)
    (others : ∀ session, own ≠ session → server.removing session = true → next.removing session = true)
    (outstanding : ∀ session, next.outstanding session = server.outstanding session) : Ledger next := by
  have same : next.peers.sessionFor = server.peers.sessionFor := by rw [peers]; rfl
  have indexed : ∀ session peer_addr, next.peers.bySession session = some peer_addr →
      session ≠ own ∧ server.peers.bySession session = some peer_addr := by
    intro session peer_addr found
    rw [peers] at found
    unfold PeerRegistry.removeSession at found
    dsimp only at found
    split at found
    · cases found
    · rename_i different; exact ⟨different,found⟩
  constructor
  · intro peer_addr session held
    rw [same] at held
    have different : session ≠ own := by
      rintro rfl
      rw [ledger.standing peer_addr session held] at leaving
      cases leaving
    rcases ledger.addrHeld peer_addr session held with found | phase
    · refine .inl ?_
      rw [peers]
      exact (if_neg different).trans found
    · exact .inr ((inserting peer_addr session).mpr phase)
  · intro session peer_addr found
    obtain ⟨different,before⟩ := indexed session peer_addr found
    rw [same]
    exact (ledger.sessionHeld session peer_addr before).imp_right (others session different.symm)
  · rw [same]
    exact ledger.apart
  · intro peer_addr session held
    rw [same] at held
    have before := ledger.standing peer_addr session held
    by_contra removes
    rw [fewer session (Bool.not_eq_false _ ▸ removes)] at before
    cases before
  · rw [same,registered]
    exact ledger.registeredBelow
  · intro session peer_addr found
    rw [registered]
    exact ledger.sessionsBelow session peer_addr (indexed session peer_addr found).2
  · intro peer_addr session phase
    rw [registered]
    exact ledger.insertingBelow peer_addr session ((inserting peer_addr session).mp phase)
  · rw [peers,registered]
    exact ledger.counted
  · intro session above
    rw [outstanding]
    exact ledger.unannounced session (registered ▸ above)
  · intro peer_addr session held stays
    rw [same] at held
    rw [outstanding]
    exact ledger.unreported peer_addr session held (departed ▸ stays)
  · intro session
    rw [outstanding]
    exact ledger.once session

-- A driver passes on its carrier's Disconnected for the session at its address.
theorem Ledger.departs {server next : Server Addr} (ledger : Ledger server)
    (held : server.peers.sessionFor left = some own) (stays : server.departed own = false)
    (peers : next.peers = server.peers) (registered : next.registered = server.registered)
    (departed : next.departed = fun session => if session = own then true else server.departed session)
    (bridge : next.bridge = server.bridge) (removing : ∀ session, next.removing session = server.removing session)
    (outstanding : ∀ session, next.outstanding session = server.outstanding session + if own = session then 1 else 0) :
    Ledger next := by
  have different : ∀ session, next.departed session = false → own ≠ session ∧ server.departed session = false := by
    intro session undeparted
    rw [departed] at undeparted
    dsimp only at undeparted
    split at undeparted
    · cases undeparted
    · rename_i other; exact ⟨Ne.symm other,undeparted⟩
  constructor
  · rw [peers,bridge]
    exact ledger.addrHeld
  · intro session peer_addr indexed
    rw [peers] at indexed ⊢
    rw [removing]
    exact ledger.sessionHeld session peer_addr indexed
  · rw [peers]
    exact ledger.apart
  · intro peer_addr session remains
    rw [peers] at remains
    rw [removing]
    exact ledger.standing peer_addr session remains
  · rw [peers,registered]
    exact ledger.registeredBelow
  · rw [peers,registered]
    exact ledger.sessionsBelow
  · rw [bridge,registered]
    exact ledger.insertingBelow
  · rw [peers,registered]
    exact ledger.counted
  · intro session above
    rw [registered] at above
    have below := ledger.registeredBelow left own held
    have other : own ≠ session := by
      rintro rfl
      exact Nat.not_lt.mpr above below
    rw [outstanding,ledger.unannounced session above,if_neg other]
  · intro peer_addr session remains undeparted
    rw [peers] at remains
    obtain ⟨other,before⟩ := different session undeparted
    rw [outstanding,ledger.unreported peer_addr session remains before,if_neg other]
  · intro session
    rw [outstanding]
    by_cases same : own = session
    · cases same
      apply Nat.le_of_eq
      rw [ledger.unreported left own held stays,if_pos rfl]
    · rw [if_neg same]
      exact ledger.once session

-- A task that holds no entry moves on and sends no more than it owed.
theorem Ledger.moves {server : Server Addr} (ledger : Ledger server) (found : server.drivers[driver]? = some task)
    (more : List Event) (before : ∀ session, task.phase.removes session = false)
    (after : ∀ session, phase.removes session = false)
    (owed : ∀ session, more.countP (Event.disconnects session) + phase.reports session ≤ task.phase.reports session) :
    Ledger ({server with events := server.events ++ more}.setPhase driver phase) := by
  refine ledger.transfer rfl rfl rfl (fun _ _ => Iff.rfl) ?_ ?_
  · intro session
    have changed := removing_setPhase {server with events := server.events ++ more} found phase session
    rw [before,after,Bool.or_false,Bool.or_false] at changed
    exact changed
  · intro session
    have changed := outstanding_setPhase {server with events := server.events ++ more} found phase session
    have sent : Server.outstanding {server with events := server.events ++ more} session =
        server.outstanding session + more.countP (Event.disconnects session) := by
      unfold Server.outstanding
      dsimp only
      rw [List.countP_append]
      omega
    have paid := owed session
    omega

theorem Ledger.rests {server : Server Addr} (ledger : Ledger server) (found : server.drivers[driver]? = some task)
    (before : ∀ session, task.phase.removes session = false) (after : ∀ session, phase.removes session = false)
    (owed : ∀ session, phase.reports session ≤ task.phase.reports session) : Ledger (server.setPhase driver phase) := by
  have moved := ledger.moves found [] before after fun session => by
    rw [List.countP_nil,Nat.zero_add]
    exact owed session
  rw [List.append_nil] at moved
  exact moved

theorem Ledger.driverInbound {server : Server Addr} (ledger : Ledger server)
    (found : server.drivers[driver]? = some task) (running : task.phase = .running)
    (undeparted : ∀ reason, msg = .disconnected reason → server.undeparted task.peerAddr = true)
    (schema : NetworkSchema) : Ledger (server.driverInbound schema driver task msg) := by
  have before : ∀ session, task.phase.removes session = false := by rw [running]; exact fun _ => rfl
  have owes : ∀ session, task.phase.reports session = 0 := by rw [running]; exact fun _ => rfl
  unfold Server.driverInbound
  cases held : server.peers.sessionFor task.peerAddr with
  | none =>
    exact ledger.rests found before (fun _ => rfl) fun _ => Nat.zero_le _
  | some own =>
    by_cases leaves : ∃ reason, msg = .disconnected reason
    · obtain ⟨reason,rfl⟩ := leaves
      refine ledger.departs held (undeparted_held (undeparted reason rfl) held) rfl rfl rfl rfl ?_ ?_
      · intro session
        have changed := removing_setPhase {server with
          departed := server.markDeparted (some own) (.disconnected reason)} found
          (.sending [.disconnected own reason.debug] false false) session
        rw [before,Bool.or_false] at changed
        exact changed.trans (Bool.or_false _)
      · intro session
        have changed := outstanding_setPhase {server with
          departed := server.markDeparted (some own) (.disconnected reason)} found
          (.sending [.disconnected own reason.debug] false false) session
        rw [owes] at changed
        exact changed.trans (congrArg _ (disconnected_reports own session _))
    · have quiet : ∀ reason, msg ≠ .disconnected reason := fun reason same => leaves ⟨reason,same⟩
      have unmarked : server.markDeparted (some own) msg = server.departed := by
        cases msg with
        | disconnected reason => exact absurd rfl (quiet reason)
        | _ => rfl
      change Ledger (setPhase {server with departed := server.markDeparted (some own) msg} driver
        (.sending (handleInbound schema true (some own) msg).1 (handleInbound schema true (some own) msg).2 false))
      rw [unmarked]
      refine ledger.rests found before (fun _ => rfl) ?_
      intro session
      rw [owes]
      exact Nat.le_of_eq (inbound_reports quiet schema own session)

theorem Ledger.driverProceeds {server : Server Addr} (ledger : Ledger server)
    (found : server.drivers[driver]? = some task) : Ledger (server.driverProceeds driver task.phase) := by
  cases phase : task.phase with
  | connecting => exact ledger
  | running => exact ledger
  | finished => exact ledger
  | removing own reason =>
    have leaving : server.removing own = true := by
      refine Bool.or_eq_true_iff.mpr (.inr (List.any_eq_true.mpr ⟨task,List.mem_of_getElem? found,?_⟩))
      rw [phase]
      exact beq_self_eq_true own
    have changed : ∀ session, ((server.driverProceeds driver (.removing own reason)).removing session ||
        DriverPhase.removes session (.removing own reason)) = (server.removing session || false) := by
      intro session
      have set := removing_setPhase {server with peers := server.peers.removeSession own} found
        (.sending [.disconnected own reason] false false) session
      rw [phase] at set
      exact set
    refine ledger.dropped leaving rfl rfl rfl (fun _ _ => Iff.rfl) ?_ ?_ ?_
    · intro session removes
      have same := changed session
      rw [Bool.or_eq_true_iff.mpr (.inl removes)] at same
      exact (Bool.or_false _).symm.trans same.symm
    · intro session other removes
      have same := changed session
      have apart : DriverPhase.removes session (.removing own reason) = false := beq_eq_false_iff_ne.mpr other
      rw [apart,Bool.or_false] at same
      exact same.trans ((Bool.or_false _).trans removes)
    · intro session
      have moved := outstanding_setPhase {server with peers := server.peers.removeSession own} found
        (.sending [.disconnected own reason] false false) session
      rw [phase] at moved
      have paid : DriverPhase.reports session (.sending [.disconnected own reason] false false) =
        DriverPhase.reports session (.removing own reason) := disconnected_reports own session reason
      rw [paid] at moved
      exact Nat.add_right_cancel moved
  | sending events goes_on goes_on_unheard =>
    have before : ∀ session, task.phase.removes session = false := by rw [phase]; exact fun _ => rfl
    have stops : ∀ (unheard : Bool) session, (if unheard then DriverPhase.running else .finished).removes session = false ∧
        (if unheard then DriverPhase.running else .finished).reports session = 0 := by
      intro unheard session
      cases unheard <;> exact ⟨rfl,rfl⟩
    cases events with
    | nil =>
      refine ledger.rests found before (fun session => (stops goes_on session).1) ?_
      intro session
      rw [(stops goes_on session).2]
      exact Nat.zero_le _
    | cons event events =>
      unfold Server.driverProceeds
      dsimp only
      split
      · refine ledger.moves found [event] before (fun _ => rfl) ?_
        intro session
        rw [phase]
        unfold DriverPhase.reports
        exact Nat.le_of_eq List.countP_append.symm
      · refine ledger.rests found before (fun session => (stops goes_on_unheard session).1) ?_
        intro session
        rw [(stops goes_on_unheard session).2]
        exact Nat.zero_le _

theorem Ledger.new : Ledger (Server.new : Server Addr) :=
  ⟨nofun,nofun,nofun,nofun,nofun,nofun,nofun,rfl,fun _ _ => rfl,nofun,fun _ => Nat.zero_le _⟩

theorem Ledger.sound {server : Server Addr} (ledger : Ledger server) : Sound server := by
  refine ⟨ledger.addrHeld,ledger.sessionHeld,?_,?_⟩
  · intro quiet session peer_addr
    constructor
    · intro indexed
      rcases ledger.sessionHeld session peer_addr indexed with held | leaving
      · exact held
      · rw [quiet.removed session] at leaving
        cases leaving
    · intro held
      rcases ledger.addrHeld peer_addr session held with indexed | inserting
      · exact indexed
      · exact absurd inserting (quiet.registered peer_addr session)
  · intro session
    have once := ledger.once session
    unfold outstanding at once
    omega

theorem own_only {server : Server Addr} (admitted : server.admissible action = true) : ¬RemovesNewer server action := by
  rintro ⟨driver,act,task,own,session,rfl,found,removes,registered,held,newer⟩
  unfold admissible at admitted
  dsimp only at admitted
  rw [found] at admitted
  have first := (Bool.and_eq_true_iff.mp admitted).1
  unfold ownEntry at first
  rw [removes,registered,held] at first
  exact absurd (beq_iff_eq.mp first) (Nat.ne_of_lt newer)

variable {Addr : Type} [DecidableEq Addr]

theorem sessionFor_removeAddr {peers : PeerRegistry Addr}
    (held : (peers.removeAddr left).sessionFor peer_addr = some session) :
    peer_addr ≠ left ∧ peers.sessionFor peer_addr = some session := by
  unfold PeerRegistry.sessionFor PeerRegistry.removeAddr at held
  dsimp only at held
  split at held
  · cases held
  · rename_i other; exact ⟨other,held⟩

-- `remove`'s first operation takes the entry: from then on the task that took it
-- owes the one Disconnected.
theorem Ledger.taken {server next : Server Addr} (ledger : Ledger server)
    (held : server.peers.sessionFor left = some own) (stays : server.departed own = false)
    (peers : next.peers = server.peers.removeAddr left) (registered : next.registered = server.registered)
    (departed : next.departed = server.departed)
    (inserting : ∀ peer_addr session, next.bridge = .inserting peer_addr session ↔
      server.bridge = .inserting peer_addr session)
    (removing : ∀ session, next.removing session = (server.removing session || own == session))
    (outstanding : ∀ session, next.outstanding session = server.outstanding session + if own = session then 1 else 0) :
    Ledger next := by
  have other : ∀ peer_addr session, next.peers.sessionFor peer_addr = some session →
      own ≠ session ∧ server.peers.sessionFor peer_addr = some session := by
    intro peer_addr session remains
    rw [peers] at remains
    obtain ⟨apart,before⟩ := sessionFor_removeAddr remains
    refine ⟨?_,before⟩
    rintro rfl
    exact apart (ledger.apart peer_addr left own before held)
  constructor
  · intro peer_addr session remains
    rw [peers]
    exact (ledger.addrHeld peer_addr session (other peer_addr session remains).2).imp_right
      (inserting peer_addr session).mpr
  · intro session peer_addr indexed
    rw [peers] at indexed ⊢
    rw [removing]
    by_cases same : own = session
    · exact .inr (Bool.or_eq_true_iff.mpr (.inr (beq_iff_eq.mpr same)))
    · rcases ledger.sessionHeld session peer_addr indexed with stands | leaving
      · refine .inl ?_
        have apart : peer_addr ≠ left := by
          rintro rfl
          exact same (Option.some.inj (held.symm.trans stands))
        unfold PeerRegistry.sessionFor PeerRegistry.removeAddr
        dsimp only
        rw [if_neg apart]
        exact stands
      · exact .inr (Bool.or_eq_true_iff.mpr (.inl leaving))
  · intro peer_addr second session first_held second_held
    exact ledger.apart peer_addr second session (other _ _ first_held).2 (other _ _ second_held).2
  · intro peer_addr session remains
    obtain ⟨different,before⟩ := other peer_addr session remains
    rw [removing,ledger.standing peer_addr session before]
    exact beq_eq_false_iff_ne.mpr different
  · intro peer_addr session remains
    rw [registered]
    exact ledger.registeredBelow peer_addr session (other peer_addr session remains).2
  · rw [peers,registered]
    exact ledger.sessionsBelow
  · intro peer_addr session phase
    rw [registered]
    exact ledger.insertingBelow peer_addr session ((inserting peer_addr session).mp phase)
  · rw [peers,registered]
    exact ledger.counted
  · intro session above
    rw [registered] at above
    have below := ledger.registeredBelow left own held
    have different : own ≠ session := by
      rintro rfl
      exact Nat.not_lt.mpr above below
    rw [outstanding,ledger.unannounced session above,if_neg different]
  · intro peer_addr session remains undeparted
    obtain ⟨different,before⟩ := other peer_addr session remains
    rw [departed] at undeparted
    rw [outstanding,ledger.unreported peer_addr session before undeparted,if_neg different]
  · intro session
    rw [outstanding]
    by_cases same : own = session
    · cases same
      apply Nat.le_of_eq
      rw [ledger.unreported left own held stays,if_pos rfl]
    · rw [if_neg same]
      exact ledger.once session

-- `register`'s first operation: the counter has a session that nothing names yet.
theorem Ledger.registers {server : Server Addr} (ledger : Ledger server) (bridge : server.bridge = .registering place driver)
    (room : server.registered < 2^64) (vacant : server.peers.byAddr place = none) : Ledger server.bridgeStep := by
  have own : server.peers.nextSession = server.registered := ledger.counted.trans (Nat.mod_eq_of_lt room)
  have next : server.bridgeStep = {server with
      peers := (server.peers.registerAddr place driver).2
      registered := server.registered + 1
      drivers := server.drivers.modify driver fun task => {task with session := some server.peers.nextSession}
      bridge := .inserting place server.peers.nextSession} := by
    unfold bridgeStep
    rw [bridge]
    rfl
  have phases : ∀ {β : Type} (f : DriverPhase → β), (server.bridgeStep.drivers.map fun task => f task.phase) =
      server.drivers.map fun task => f task.phase := by
    intro β f
    rw [next]
    refine map_modify ?_ _ _
    intro task
    rfl
  have outstanding : ∀ session, server.bridgeStep.outstanding session = server.outstanding session := by
    intro session
    unfold Server.outstanding
    rw [phases,next,bridge]
    rfl
  have removing : ∀ session, server.bridgeStep.removing session = server.removing session := by
    intro session
    rw [removing_map,removing_map,phases,next,bridge]
    rfl
  have held : ∀ peer_addr session, server.bridgeStep.peers.sessionFor peer_addr = some session →
      (peer_addr = place ∧ session = server.registered) ∨
        (peer_addr ≠ place ∧ server.peers.sessionFor peer_addr = some session) := by
    intro peer_addr session found
    rw [next] at found
    unfold PeerRegistry.sessionFor PeerRegistry.registerAddr at found
    dsimp only at found
    split at found
    · rename_i same
      cases found
      exact .inl ⟨same,own⟩
    · rename_i other
      exact .inr ⟨other,found⟩
  have fresh := ledger.unannounced server.registered (Nat.le_refl _)
  have indexes : server.bridgeStep.peers.bySession = server.peers.bySession := by rw [next]; rfl
  have phase : server.bridgeStep.bridge = .inserting place server.registered := by rw [next,← own]
  have count : server.bridgeStep.registered = server.registered + 1 := by rw [next]
  constructor
  · intro peer_addr session found
    rw [indexes,phase]
    rcases held peer_addr session found with ⟨rfl,rfl⟩ | ⟨other,before⟩
    · exact .inr rfl
    · refine (ledger.addrHeld peer_addr session before).imp_right ?_
      intro inserting
      rw [bridge] at inserting
      cases inserting
  · intro session peer_addr found
    rw [indexes] at found
    rw [removing]
    refine (ledger.sessionHeld session peer_addr found).imp_left ?_
    intro stands
    have other : peer_addr ≠ place := by
      rintro rfl
      unfold PeerRegistry.sessionFor at stands
      rw [vacant] at stands
      cases stands
    rw [next]
    unfold PeerRegistry.sessionFor PeerRegistry.registerAddr
    dsimp only
    rw [if_neg other]
    exact stands
  · intro peer_addr second session first_found second_found
    rcases held peer_addr session first_found with ⟨rfl,rfl⟩ | ⟨_,first_before⟩
    · rcases held second _ second_found with ⟨rfl,_⟩ | ⟨_,before⟩
      · rfl
      · exact absurd (ledger.registeredBelow second _ before) (Nat.lt_irrefl _)
    · rcases held second session second_found with ⟨rfl,rfl⟩ | ⟨_,second_before⟩
      · exact absurd (ledger.registeredBelow peer_addr _ first_before) (Nat.lt_irrefl _)
      · exact ledger.apart peer_addr second session first_before second_before
  · intro peer_addr session found
    rw [removing]
    rcases held peer_addr session found with ⟨_,rfl⟩ | ⟨_,before⟩
    · by_contra removes
      have owed := removing_outstanding (Bool.not_eq_false _ ▸ removes)
      rw [fresh] at owed
      cases owed
    · exact ledger.standing peer_addr session before
  · intro peer_addr session found
    rw [count]
    rcases held peer_addr session found with ⟨_,rfl⟩ | ⟨_,before⟩
    · exact Nat.lt_succ_self _
    · exact Nat.lt_succ_of_lt (ledger.registeredBelow peer_addr session before)
  · intro session peer_addr found
    rw [indexes] at found
    rw [count]
    exact Nat.lt_succ_of_lt (ledger.sessionsBelow session peer_addr found)
  · intro peer_addr session inserting
    rw [phase] at inserting
    cases inserting
    rw [count]
    exact Nat.lt_succ_self _
  · rw [count,next]
    change (server.peers.nextSession + 1) % 2^64 = _
    rw [own]
  · intro session above
    rw [count] at above
    rw [outstanding]
    exact ledger.unannounced session (Nat.le_of_succ_le above)
  · intro peer_addr session found stays
    rw [outstanding]
    rcases held peer_addr session found with ⟨_,rfl⟩ | ⟨_,before⟩
    · exact fresh
    · refine ledger.unreported peer_addr session before ?_
      rw [next] at stays
      exact stays
  · intro session
    rw [outstanding]
    exact ledger.once session

-- Its second operation: the session is put in its index while its entry stands or
-- is still to be removed there.
theorem Ledger.indexes {server : Server Addr} (ledger : Ledger server) (bridge : server.bridge = .inserting place own)
    (standing : server.peers.sessionFor place = some own ∨ server.removing own = true) : Ledger server.bridgeStep := by
  have next : server.bridgeStep =
      {server with peers := server.peers.registerSession own place,bridge := .sending (.ready own)} := by
    unfold bridgeStep
    rw [bridge]
  have outstanding : ∀ session, server.bridgeStep.outstanding session = server.outstanding session := by
    intro session
    rw [next]
    unfold Server.outstanding
    rw [bridge]
    rfl
  have removing : ∀ session, server.bridgeStep.removing session = server.removing session := by
    intro session
    rw [next]
    unfold Server.removing
    rw [bridge]
    rfl
  have same : server.bridgeStep.peers.sessionFor = server.peers.sessionFor := by rw [next]; rfl
  have indexed : ∀ session, server.bridgeStep.peers.bySession session =
      if session = own then some place else server.peers.bySession session := by rw [next]; exact fun _ => rfl
  have count : server.bridgeStep.registered = server.registered := by rw [next]
  have departed : server.bridgeStep.departed = server.departed := by rw [next]
  constructor
  · intro peer_addr session held
    rw [same] at held
    refine .inl ?_
    rw [indexed]
    by_cases new : session = own
    · cases new
      rw [if_pos rfl]
      rcases standing with stands | leaving
      · rw [ledger.apart peer_addr place _ held stands]
      · rw [ledger.standing peer_addr _ held] at leaving
        cases leaving
    · rw [if_neg new]
      rcases ledger.addrHeld peer_addr session held with found | inserting
      · exact found
      · rw [bridge] at inserting
        cases inserting
        exact absurd rfl new
  · intro session peer_addr found
    rw [indexed] at found
    rw [same,removing]
    split at found
    · rename_i new
      cases new
      cases found
      exact standing
    · exact ledger.sessionHeld session peer_addr found
  · rw [same]
    exact ledger.apart
  · intro peer_addr session held
    rw [same] at held
    rw [removing]
    exact ledger.standing peer_addr session held
  · rw [same,count]
    exact ledger.registeredBelow
  · intro session peer_addr found
    rw [indexed] at found
    rw [count]
    split at found
    · rename_i new
      rw [new]
      exact ledger.insertingBelow place own bridge
    · exact ledger.sessionsBelow session peer_addr found
  · intro peer_addr session inserting
    rw [next] at inserting
    cases inserting
  · rw [next]
    exact ledger.counted
  · intro session above
    rw [outstanding]
    exact ledger.unannounced session (count ▸ above)
  · intro peer_addr session held stays
    rw [same] at held
    rw [outstanding]
    exact ledger.unreported peer_addr session held (departed ▸ stays)
  · intro session
    rw [outstanding]
    exact ledger.once session

theorem Ledger.driverRemoves {server : Server Addr} (ledger : Ledger server)
    (found : server.drivers[driver]? = some task) (before : ∀ session, task.phase.removes session = false)
    (owes : ∀ session, task.phase.reports session = 0) (undeparted : server.undeparted task.peerAddr = true)
    (reason : String) : Ledger (server.driverRemoves driver task reason) := by
  unfold Server.driverRemoves
  cases entry : server.peers.byAddr task.peerAddr with
  | none => exact ledger.rests found before (fun _ => rfl) fun _ => Nat.zero_le _
  | some peer =>
    have held : server.peers.sessionFor task.peerAddr = some peer.session := congrArg (Option.map PeerEntry.session) entry
    refine ledger.taken held (undeparted_held undeparted held) rfl rfl rfl (fun _ _ => Iff.rfl) ?_ ?_
    · intro session
      have changed := removing_setPhase {server with peers := server.peers.removeAddr task.peerAddr} found
        (.removing peer.session reason) session
      rw [before,Bool.or_false] at changed
      exact changed
    · intro session
      have changed := outstanding_setPhase {server with peers := server.peers.removeAddr task.peerAddr} found
        (.removing peer.session reason) session
      rw [owes] at changed
      exact changed

theorem Ledger.driverStep {server : Server Addr} (ledger : Ledger server) (found : server.drivers[driver]? = some task)
    (admitted : server.admissible (.driver driver action) = true) (schema : NetworkSchema) :
    Ledger (server.driverStep schema driver task action) := by
  have undeparted : reportsEntry task.phase action = true → server.undeparted task.peerAddr = true := by
    intro reports
    unfold admissible at admitted
    dsimp only at admitted
    rw [found] at admitted
    have second := (Bool.and_eq_true_iff.mp admitted).2
    rw [reports] at second
    exact second
  unfold Server.driverStep
  split
  · rename_i phase
    exact ledger.rests found (by rw [phase]; exact fun _ => rfl) (fun _ => rfl) fun _ => Nat.zero_le _
  · rename_i phase
    rw [phase] at undeparted
    exact ledger.driverRemoves found (by rw [phase]; exact fun _ => rfl) (by rw [phase]; exact fun _ => rfl) (undeparted rfl) _
  · rename_i phase
    exact ledger.rests found (by rw [phase]; exact fun _ => rfl) (fun _ => rfl) fun _ => Nat.zero_le _
  · rename_i phase
    rw [phase] at undeparted
    refine ledger.driverInbound found phase ?_ schema
    rintro reason rfl
    exact undeparted rfl
  · rename_i phase
    rw [phase] at undeparted
    exact ledger.driverRemoves found (by rw [phase]; exact fun _ => rfl) (by rw [phase]; exact fun _ => rfl) (undeparted rfl) _
  · rename_i phase
    unfold Server.driverOutbound
    split
    · exact ledger
    · exact ledger.rests found (by rw [phase]; exact fun _ => rfl) (fun _ => rfl) fun _ => Nat.zero_le _
  · rename_i phase
    rw [phase] at undeparted
    exact ledger.driverRemoves found (by rw [phase]; exact fun _ => rfl) (by rw [phase]; exact fun _ => rfl) (undeparted rfl) _
  · rename_i phase
    exact ledger.rests found (by rw [phase]; exact fun _ => rfl) (fun _ => rfl) fun _ => Nat.zero_le _
  · exact ledger.driverProceeds found
  · exact ledger

theorem Ledger.handleEvent {server : Server Addr} (ledger : Ledger server) (waiting : server.bridge = .waiting)
    (admitted : server.admissible (.event event) = true) : Ledger (server.handleEvent event) := by
  have idle : ∀ session, server.bridge.removes session = false ∧ server.bridge.reports session = 0 := by
    rw [waiting]; exact fun _ => ⟨rfl,rfl⟩
  cases event with
  | established peer_addr =>
    refine ledger.transfer rfl rfl rfl ?_ ?_ ?_
    · intro other session
      rw [waiting]
      exact ⟨nofun,nofun⟩
    · intro session
      unfold Server.handleEvent Server.removing
      dsimp only
      rw [(idle session).1,List.any_append]
      exact Bool.or_false _
    · intro session
      unfold Server.handleEvent Server.outstanding
      dsimp only
      rw [(idle session).2,List.map_append,List.sum_append]
      exact Nat.le_refl _
  | data peer_addr plaintext =>
    unfold Server.handleEvent
    dsimp only
    split
    · exact ledger.transfer rfl rfl rfl (fun _ _ => Iff.rfl) (fun _ => rfl) fun _ => Nat.le_refl _
    · exact ledger
  | disconnected peer_addr reason =>
    unfold Server.handleEvent
    dsimp only
    cases entry : server.peers.byAddr peer_addr with
    | none => exact ledger.transfer rfl rfl rfl (fun _ _ => Iff.rfl) (fun _ => rfl) fun _ => Nat.le_refl _
    | some peer =>
      have held : server.peers.sessionFor peer_addr = some peer.session := congrArg (Option.map PeerEntry.session) entry
      have undeparted : server.undeparted peer_addr = true := by
        unfold admissible at admitted
        rw [waiting] at admitted
        exact admitted
      refine ledger.taken held (undeparted_held undeparted held) rfl rfl rfl ?_ ?_ ?_
      · intro other session
        rw [waiting]
        exact ⟨nofun,nofun⟩
      · intro session
        unfold Server.removing
        rw [(idle session).1,Bool.or_comm]
        rfl
      · intro session
        unfold Server.outstanding
        rw [(idle session).2]
        exact Nat.add_right_comm _ _ _
  | error description =>
    refine ledger.transfer rfl rfl rfl ?_ ?_ ?_
    · intro other session
      rw [waiting]
      exact ⟨nofun,nofun⟩
    · intro session
      unfold Server.handleEvent Server.removing
      rw [(idle session).1]
      rfl
    · intro session
      unfold Server.handleEvent Server.outstanding
      rw [(idle session).2]
      exact Nat.le_refl _

theorem Ledger.bridgeStep {server : Server Addr} (ledger : Ledger server)
    (admitted : server.admissible .bridge = true) : Ledger server.bridgeStep := by
  unfold admissible at admitted
  cases bridge : server.bridge with
  | waiting => unfold Server.bridgeStep; rw [bridge]; exact ledger
  | stopped => unfold Server.bridgeStep; rw [bridge]; exact ledger
  | registering peer_addr driver =>
    rw [bridge] at admitted
    obtain ⟨room,vacant⟩ := Bool.and_eq_true_iff.mp admitted
    exact ledger.registers bridge (of_decide_eq_true room) (Option.isNone_iff_eq_none.mp vacant)
  | inserting peer_addr session =>
    rw [bridge] at admitted
    exact ledger.indexes bridge ((Bool.or_eq_true_iff.mp admitted).imp_left beq_iff_eq.mp)
  | removing own reason =>
    have leaving : server.removing own = true := by
      unfold Server.removing
      rw [bridge]
      exact Bool.or_eq_true_iff.mpr (.inl (beq_self_eq_true own))
    unfold Server.bridgeStep
    rw [bridge]
    refine ledger.dropped leaving rfl rfl rfl ?_ ?_ ?_ ?_
    · intro other session
      rw [bridge]
      exact ⟨nofun,nofun⟩
    · intro session removes
      exact Bool.or_eq_true_iff.mpr (.inr removes)
    · intro session other removes
      unfold Server.removing at removes
      rw [bridge] at removes
      rcases Bool.or_eq_true_iff.mp removes with same | drivers
      · exact absurd (beq_iff_eq.mp same) other
      · exact drivers
    · intro session
      have same : BridgePhase.reports session (.sending (.disconnected own reason) : BridgePhase Addr) =
        BridgePhase.reports session (.removing own reason : BridgePhase Addr) := if_congr beq_iff_eq rfl rfl
      unfold Server.outstanding
      rw [bridge,← same]
  | sending event =>
    unfold Server.bridgeStep
    rw [bridge]
    dsimp only
    split
    · refine ledger.transfer rfl rfl rfl ?_ ?_ ?_
      · intro other session
        rw [bridge]
        exact ⟨nofun,nofun⟩
      · intro session
        unfold Server.removing
        rw [bridge]
        rfl
      · intro session
        unfold Server.outstanding
        dsimp only
        rw [bridge,List.countP_append,List.countP_singleton]
        exact Nat.le_refl _
    · refine ledger.transfer rfl rfl rfl ?_ ?_ ?_
      · intro other session
        rw [bridge]
        exact ⟨nofun,nofun⟩
      · intro session
        unfold Server.removing
        rw [bridge]
        rfl
      · intro session
        unfold Server.outstanding
        dsimp only
        rw [bridge]
        exact Nat.add_le_add_right (Nat.add_le_add_left (Nat.zero_le _) _) _

theorem Ledger.step {server : Server Addr} (ledger : Ledger server) (admitted : server.admissible action = true)
    (schema : NetworkSchema) : Ledger (server.step schema action) := by
  unfold Server.step
  cases action with
  | event event =>
    cases bridge : server.bridge with
    | waiting => exact ledger.handleEvent bridge admitted
    | _ => exact ledger
  | bridge => exact ledger.bridgeStep admitted
  | driver driver action =>
    dsimp only
    cases found : server.drivers[driver]? with
    | none => exact ledger
    | some task => exact ledger.driverStep found admitted schema
  | shutdown =>
    cases bridge : server.bridge with
    | waiting =>
      refine ledger.transfer rfl rfl rfl ?_ ?_ ?_
      · intro other session
        rw [bridge]
        exact ⟨nofun,nofun⟩
      · intro session
        unfold Server.removing
        rw [bridge]
        rfl
      · intro session
        unfold Server.outstanding
        rw [bridge]
        exact Nat.le_refl _
    | _ => exact ledger
  | hangUp => exact ledger.transfer rfl rfl rfl (fun _ _ => Iff.rfl) (fun _ => rfl) fun _ => Nat.le_refl _

-- In every run whose actions are admissible the indexes are inverse up to what is
-- in progress, no driver removes a newer session's entry, and no session gets a
-- second Disconnected.
theorem peer_registry_sound (schema : NetworkSchema) (actions : List (ServerAction Addr))
    (each : EachAction (step schema) new actions fun server action => server.admissible action = true) :
    (∀ server, Reached (step schema) new actions server → Sound server) ∧
      EachAction (step schema) new actions fun server action => ¬RemovesNewer server action := by
  refine ⟨?_,each_imp own_only each⟩
  intro server reached
  exact (reached_keeps (fun ledger admitted => ledger.step admitted schema) Ledger.new each reached).sound

-- A peer that connects, leaves and connects again.
def orderly : List (ServerAction Nat) :=
  [.event (.established 7),.bridge,.bridge,.bridge,.driver 0 .ready,.event (.disconnected 7 "closed"),.bridge,.bridge,
    .driver 0 .inboundClosed,.event (.established 7),.bridge,.bridge,.bridge]

theorem peer_registry_sound_orderly :
    (∀ server, Reached (step knownTypes) new orderly server → Sound server) ∧
      EachAction (step knownTypes) new orderly fun server action => ¬RemovesNewer server action := by
  refine peer_registry_sound knownTypes orderly ?_
  unfold orderly
  repeat' refine each_cons.mpr ⟨by decide,?_⟩
  exact each_nil

-- The peer connects again before its driver is done: the session index keeps the
-- old session, and the old driver's end takes the new one's entry.
def reconnect : List (ServerAction Nat) :=
  [.event (.established 7),.bridge,.bridge,.bridge,.driver 0 .ready,.event (.established 7),.bridge,.bridge,.bridge]

-- The driver passes on its carrier's Disconnected, and the peer's own comes after.
def departing : List (ServerAction Nat) :=
  [.event (.established 7),.bridge,.bridge,.bridge,.driver 0 .ready,.driver 0 (.inbound (.disconnected .userRequested)),
    .driver 0 .proceed,.event (.disconnected 7 "closed"),.bridge,.bridge]

theorem reconnect_breaks :
    ¬(∀ server, Reached (step knownTypes) new reconnect server → Sound server) ∧
    ¬(EachAction (step knownTypes) new (reconnect ++ [.driver 0 .inboundClosed]) fun server action =>
      ¬RemovesNewer server action) ∧
    ¬(∀ server, Reached (step knownTypes) new departing server → ∀ session,
      server.events.countP (Event.disconnects session) ≤ 1) := by
  refine ⟨?_,?_,?_⟩
  · intro sound
    have final := sound (reconnect.foldl (step knownTypes) new) ⟨reconnect,[],rfl,rfl⟩
    have quiet : Quiet (reconnect.foldl (step knownTypes) new) := ⟨nofun,fun _ => rfl⟩
    cases (final.inverse quiet 0 7).mp rfl
  · intro each
    exact each reconnect _ [] rfl ⟨0,.inboundClosed,_,0,1,rfl,rfl,rfl,rfl,rfl,by decide⟩
  · intro once
    have twice := once (departing.foldl (step knownTypes) new) ⟨departing,[],rfl,rfl⟩ 0
    exact absurd twice (by decide)

end Server
end NwNetwork.Gridmate
