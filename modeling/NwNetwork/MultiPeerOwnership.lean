import NwNetwork.MultiPeerChanges

namespace NwNetwork.Gridmate
open WireReader Serialize Carrier PartialRuns

namespace MultiPeerListener
variable {Addr : Type} [DecidableEq Addr] {listener next : MultiPeerListener Addr}

-- The address of every task and whether it is still registered: all that the peer
-- map can be about.
def roster (listener : MultiPeerListener Addr) : List (Addr × Bool) :=
  listener.tasks.map fun task => (task.peerAddr,task.phase.registered)

-- An address has an entry exactly while one of its tasks is registered, and the
-- entry is that task's. Tasks that came before a task of their address are not.
structure Owned (listener : MultiPeerListener Addr) : Prop where
  entry : ∀ peer_addr peer, listener.peers peer_addr = some peer ↔ listener.roster[peer]? = some (peer_addr,true)
  older : ∀ {earlier later : PeerId} {peer_addr before after}, listener.roster[earlier]? = some (peer_addr,before) →
    listener.roster[later]? = some (peer_addr,after) → earlier < later → before = false
  forwarding : ∀ {peer peer_addr datagram}, listener.demux = .forwarding peer peer_addr datagram →
    (∃ registered, listener.roster[peer]? = some (peer_addr,registered)) ∧
      ∀ {other : PeerId} {registered}, listener.roster[other]? = some (peer_addr,registered) → other ≤ peer
  dropping : ∀ {peer_addr}, listener.demux = .dropping peer_addr → listener.peers peer_addr = none
  registering : ∀ {peer_addr datagram}, listener.demux = .registering peer_addr datagram →
    listener.peers peer_addr = none

omit [DecidableEq Addr] in
theorem roster_set {peer : PeerId} {task after : PeerTask Addr} (found : listener.tasks[peer]? = some task) (addr : after.peerAddr = task.peerAddr)
    (registered : after.phase.registered = task.phase.registered) :
    (listener.setTask peer after).roster = listener.roster := by
  apply List.ext_getElem?
  intro other
  unfold roster setTask
  rw [List.getElem?_map,List.getElem?_map,List.getElem?_set]
  split
  · rename_i same
    subst same
    split
    · rw [found]
      simp [addr,registered]
    · rename_i out
      rw [List.getElem?_eq_none (Nat.le_of_not_lt out)]
  · rfl

omit [DecidableEq Addr] in
theorem roster_found {peer : PeerId} {task : PeerTask Addr} (found : listener.tasks[peer]? = some task) :
    listener.roster[peer]? = some (task.peerAddr,task.phase.registered) := by
  unfold roster
  rw [List.getElem?_map,found]
  rfl

omit [DecidableEq Addr] in
-- Steps that leave the map and the roster alone, and those of the demux task that
-- do not start what the invariant speaks of.
theorem owned_same (owned : Owned listener) (peers : next.peers = listener.peers) (roster : next.roster = listener.roster)
    (demux : next.demux = listener.demux ∨ next.demux = .receiving ∨ next.demux = .exited ∨
      (∃ peer_addr datagram, next.demux = .looking peer_addr datagram) ∨ ∃ description, next.demux = .failing description) :
    Owned next where
  entry := by
    intro peer_addr peer
    rw [peers,roster]
    exact owned.entry peer_addr peer
  older := by
    intro earlier later peer_addr before after
    rw [roster]
    exact owned.older
  forwarding := by
    intro peer peer_addr datagram stands
    rw [roster]
    rcases demux with same | same | same | ⟨_,_,same⟩ | ⟨_,same⟩ <;> rw [same] at stands
    · exact owned.forwarding stands
    all_goals cases stands
  dropping := by
    intro peer_addr stands
    rw [peers]
    rcases demux with same | same | same | ⟨_,_,same⟩ | ⟨_,same⟩ <;> rw [same] at stands
    · exact owned.dropping stands
    all_goals cases stands
  registering := by
    intro peer_addr datagram stands
    rw [peers]
    rcases demux with same | same | same | ⟨_,_,same⟩ | ⟨_,same⟩ <;> rw [same] at stands
    · exact owned.registering stands
    all_goals cases stands

omit [DecidableEq Addr] in
theorem owned_bound : Owned (bound : MultiPeerListener Addr) where
  entry := fun _ _ => ⟨nofun,nofun⟩
  older := nofun
  forwarding := nofun
  dropping := nofun
  registering := nofun

theorem owned_registers (owned : Owned listener) (stands : listener.demux = .registering peer_addr datagram) :
    Owned ({listener with
      tasks := listener.tasks ++ [PeerTask.new peer_addr], demux := .seeding listener.tasks.length datagram }.insert
        peer_addr listener.tasks.length) := by
  have absent := owned.registering stands
  have size : listener.roster.length = listener.tasks.length := List.length_map _
  have grown : (({listener with
      tasks := listener.tasks ++ [PeerTask.new peer_addr], demux := .seeding listener.tasks.length datagram }.insert
        peer_addr listener.tasks.length).roster) = listener.roster ++ [(peer_addr,true)] := List.map_append
  constructor
  · intro addr peer
    rw [grown,List.getElem?_append]
    change (if addr = peer_addr then some listener.tasks.length else listener.peers addr) = some peer ↔ _
    split
    · rename_i same
      subst same
      split
      · rename_i before
        constructor
        · intro here
          cases Option.some.inj here
          omega
        · intro there
          rw [(owned.entry addr peer).mpr there] at absent
          cases absent
      · rename_i after
        constructor
        · intro here
          cases Option.some.inj here
          rw [size,Nat.sub_self]
          rfl
        · intro there
          obtain ⟨place,_⟩ := List.getElem?_eq_some_iff.mp there
          rw [List.length_singleton,size] at place
          rw [size] at after
          congr 1
          omega
    · rename_i other
      rw [owned.entry addr peer]
      split
      · rfl
      · rename_i after
        rw [List.getElem?_eq_none (Nat.le_of_not_lt after)]
        constructor
        · exact nofun
        · intro there
          obtain ⟨place,same⟩ := List.getElem?_eq_some_iff.mp there
          rw [List.getElem_singleton] at same
          cases same
          exact absurd rfl other
  · intro earlier later addr before after first second less
    rw [grown] at first second
    have front : earlier < listener.roster.length := by
      obtain ⟨place,_⟩ := List.getElem?_eq_some_iff.mp second
      rw [List.length_append,List.length_singleton] at place
      exact Nat.lt_of_lt_of_le less (Nat.le_of_lt_succ place)
    rw [List.getElem?_append_left front] at first
    rw [List.getElem?_append] at second
    split at second
    · exact owned.older first second less
    · obtain ⟨place,same⟩ := List.getElem?_eq_some_iff.mp second
      rw [List.getElem_singleton] at same
      cases same
      cases before with
      | false => rfl
      | true =>
        rw [(owned.entry peer_addr earlier).mpr first] at absent
        cases absent
  · intro peer addr datagram other
    cases other
  · intro addr other
    cases other
  · intro addr datagram other
    cases other

theorem owned_removes (owned : Owned listener) (found : listener.tasks[peer]? = some task)
    (stands : task.phase = .removing result) :
    Owned ((listener.remove task.peerAddr).setTask peer {task with phase := .parting result}) := by
  have here : listener.roster[peer]? = some (task.peerAddr,true) := by
    rw [roster_found found,stands]
    rfl
  have inside : peer < listener.roster.length := (List.getElem?_eq_some_iff.mp here).1
  have changed : ((listener.remove task.peerAddr).setTask peer {task with phase := .parting result}).roster =
      listener.roster.set peer (task.peerAddr,false) := List.map_set
  constructor
  · intro addr other
    rw [changed,List.getElem?_set]
    change (if addr = task.peerAddr then none else listener.peers addr) = some other ↔ _
    by_cases same : addr = task.peerAddr
    · rw [if_pos same]
      subst same
      constructor
      · exact nofun
      · intro there
        split at there
        · cases there
        · rename_i apart
          have twice := (owned.entry _ _).mpr there
          rw [(owned.entry _ _).mpr here] at twice
          exact absurd (Option.some.inj twice) apart
    · rw [if_neg same,owned.entry]
      split
      · rename_i this
        subst this
        rw [here]
        constructor
        · intro there
          cases there
          exact absurd rfl same
        · exact nofun
      · rfl
  · intro earlier later addr before after first second less
    rw [changed,List.getElem?_set] at first second
    have old : ∃ was, listener.roster[later]? = some (addr,was) := by
      split at second
      · rename_i this
        subst this
        cases second
        exact ⟨true,here⟩
      · exact ⟨after,second⟩
    obtain ⟨was,second⟩ := old
    split at first
    · rename_i this
      subst this
      cases first
      rfl
    · exact owned.older first second less
  · intro other addr datagram forwarding
    obtain ⟨⟨registered,mine⟩,newest⟩ := owned.forwarding forwarding
    rw [changed]
    constructor
    · rw [List.getElem?_set]
      split
      · rename_i this
        subst this
        rw [here] at mine
        cases mine
        exact ⟨false,rfl⟩
      · exact ⟨registered,mine⟩
    · intro another was there
      rw [List.getElem?_set] at there
      split at there
      · rename_i this
        subst this
        cases there
        exact newest here
      · exact newest there
  · intro addr dropping
    change (if addr = task.peerAddr then none else listener.peers addr) = none
    split
    · rfl
    · exact owned.dropping dropping
  · intro addr datagram registering
    change (if addr = task.peerAddr then none else listener.peers addr) = none
    split
    · rfl
    · exact owned.registering registering

omit [DecidableEq Addr] in
theorem owned_finds (owned : Owned listener) (found : listener.peers peer_addr = some peer) :
    Owned {listener with demux := .forwarding peer peer_addr datagram} where
  entry := owned.entry
  older := owned.older
  forwarding := by
    intro other addr datagram stands
    cases stands
    have here := (owned.entry peer_addr peer).mp found
    refine ⟨⟨true,here⟩,?_⟩
    intro other registered there
    by_contra newer
    have gone := owned.older here there (Nat.lt_of_not_le newer)
    cases gone
  dropping := nofun
  registering := nofun

omit [DecidableEq Addr] in
-- The demux task finds the receiver gone after the task removed its entry, and only
-- the demux task could have put another one there.
theorem owned_refused (owned : Owned listener) (stands : listener.demux = .forwarding peer peer_addr datagram)
    (found : listener.tasks[peer]? = some task) (closed : task.phase.isFinished = true) :
    Owned {listener with demux := .dropping peer_addr} where
  entry := owned.entry
  older := owned.older
  forwarding := nofun
  dropping := by
    intro addr dropping
    cases dropping
    change listener.peers peer_addr = none
    obtain ⟨⟨registered,here⟩,newest⟩ := owned.forwarding stands
    rw [roster_found found,finished_unregistered closed] at here
    cases here
    cases entry : listener.peers task.peerAddr with
    | none => rfl
    | some other =>
      have there := (owned.entry _ _).mp entry
      have last := newest there
      rcases Nat.lt_or_eq_of_le last with before | same
      · cases owned.older there (roster_found found) before
      · rw [same,roster_found found,finished_unregistered closed] at there
        cases there
  registering := nofun

theorem remove_absent (absent : listener.peers peer_addr = none) :
    (listener.remove peer_addr).peers = listener.peers := by
  funext addr
  change (if addr = peer_addr then none else listener.peers addr) = listener.peers addr
  split
  · rename_i same
    rw [same,absent]
  · rfl

-- A task whose first datagram is still in the demux task's hands has not begun, and
-- every other task has.
structure Fresh (listener : MultiPeerListener Addr) : Prop where
  seeding : ∀ {peer datagram}, listener.demux = .seeding peer datagram → ∃ task, listener.tasks[peer]? = some task ∧
    task.phase = .unspawned ∧ task.fed = [] ∧ task.inbound = [] ∧ listener.tasks.length = peer + 1
  spawned : ∀ {peer : PeerId} {task}, listener.tasks[peer]? = some task → task.phase = .unspawned →
    ∃ datagram, listener.demux = .seeding peer datagram

omit [DecidableEq Addr] in
theorem fresh_bound : Fresh (bound : MultiPeerListener Addr) := ⟨nofun,nofun⟩

omit [DecidableEq Addr] in
theorem fresh_same (fresh : Fresh listener) (tasks : next.tasks = listener.tasks)
    (before : ∀ peer datagram, listener.demux ≠ .seeding peer datagram)
    (after : ∀ peer datagram, next.demux ≠ .seeding peer datagram) : Fresh next where
  seeding := fun stands => absurd stands (after _ _)
  spawned := by
    intro peer task found unspawned
    rw [tasks] at found
    obtain ⟨datagram,stands⟩ := fresh.spawned found unspawned
    exact absurd stands (before _ _)

omit [DecidableEq Addr] in
-- A step of a task that has begun.
theorem fresh_set (fresh : Fresh listener) (found : listener.tasks[peer]? = some task)
    (begun : task.phase ≠ .unspawned) (still : after.phase ≠ .unspawned)
    (tasks : next.tasks = (listener.setTask peer after).tasks)
    (demux : next.demux = listener.demux ∨ ∀ peer datagram, listener.demux ≠ .seeding peer datagram ∧
      next.demux ≠ .seeding peer datagram) : Fresh next where
  seeding := by
    intro other datagram stands
    rcases demux with same | none
    · rw [same] at stands
      obtain ⟨fresh',found',unspawned,fed,inbound,last⟩ := fresh.seeding stands
      have apart : peer ≠ other := by
        rintro rfl
        rw [found] at found'
        cases found'
        exact begun unspawned
      refine ⟨fresh',?_,unspawned,fed,inbound,?_⟩
      · rw [tasks,setTask_other apart,found']
      · rw [tasks]
        exact List.length_set.trans last
    · exact absurd stands (none _ _).2
  spawned := by
    intro other seen there unspawned
    rw [tasks] at there
    rcases setTask_cases there with ⟨rfl,rfl⟩ | ⟨apart,there⟩
    · exact absurd unspawned still
    · obtain ⟨datagram,stands⟩ := fresh.spawned there unspawned
      rcases demux with same | none
      · exact ⟨datagram,same.trans stands⟩
      · exact absurd stands (none _ _).1

omit [DecidableEq Addr] in
theorem fresh_pushes {task : PeerTask Addr} {sending : List (PeerId × Bytes)} (fresh : Fresh listener) (found : listener.tasks[peer]? = some task) :
    Fresh ({listener with sending := sending}.setTask peer {task with outbound := queue}) where
  seeding := by
    intro other datagram stands
    obtain ⟨fresh',found',unspawned,fed,inbound,last⟩ := fresh.seeding stands
    have size : (listener.tasks.set peer {task with outbound := queue}).length = other + 1 := List.length_set.trans last
    by_cases same : peer = other
    · subst same
      rw [found] at found'
      cases found'
      exact ⟨_,setTask_found found,unspawned,fed,inbound,size⟩
    · exact ⟨fresh',(setTask_other same).trans found',unspawned,fed,inbound,size⟩
  spawned := by
    intro other seen there unspawned
    rcases setTask_cases there with ⟨rfl,rfl⟩ | ⟨apart,there⟩
    · exact fresh.spawned found unspawned
    · exact fresh.spawned there unspawned

omit [DecidableEq Addr] in
theorem fresh_seeds (fresh : Fresh listener) (stands : listener.demux = .seeding peer datagram)
    (begun : after.phase ≠ .unspawned) : Fresh ({listener with demux := .receiving}.setTask peer after) where
  seeding := nofun
  spawned := by
    intro other seen there unspawned
    rcases setTask_cases there with ⟨rfl,rfl⟩ | ⟨apart,there⟩
    · exact absurd unspawned begun
    · obtain ⟨another,seeding⟩ := fresh.spawned there unspawned
      rw [stands] at seeding
      cases seeding
      exact absurd rfl apart

theorem fresh_registers (fresh : Fresh listener) (stands : listener.demux = .registering peer_addr datagram) :
    Fresh ({listener with
      tasks := listener.tasks ++ [PeerTask.new peer_addr], demux := .seeding listener.tasks.length datagram }.insert
        peer_addr listener.tasks.length) where
  seeding := by
    intro peer first seeding
    cases seeding
    exact ⟨PeerTask.new peer_addr,List.getElem?_concat_length,rfl,rfl,rfl,List.length_append⟩
  spawned := by
    intro peer task there unspawned
    have place : (listener.tasks ++ [PeerTask.new peer_addr])[peer]? = some task := there
    rw [List.getElem?_append] at place
    split at place
    · obtain ⟨another,seeding⟩ := fresh.spawned place unspawned
      rw [stands] at seeding
      cases seeding
    · rename_i after
      obtain ⟨inside,_⟩ := List.getElem?_eq_some_iff.mp place
      have last := Nat.sub_eq_zero_iff_le.mp (Nat.lt_one_iff.mp inside)
      have same : peer = listener.tasks.length := Nat.le_antisymm last (Nat.le_of_not_lt after)
      exact ⟨datagram,by rw [same]; rfl⟩

theorem fresh_change (changed : Change action listener next) (fresh : Fresh listener) : Fresh next := by
  have elsewhere {stage : DemuxPhase Addr} (stands : listener.demux = stage)
      (other : ∀ peer datagram, stage ≠ .seeding peer datagram) :
      ∀ peer datagram, listener.demux ≠ .seeding peer datagram := by
    intro peer datagram seeding
    exact other peer datagram (stands.symm.trans seeding)
  cases changed with
  | hears stands => exact fresh_same fresh rfl (elsewhere stands nofun) nofun
  | fails stands => exact fresh_same fresh rfl (elsewhere stands nofun) nofun
  | stops stands =>
    rcases stands with stands | ⟨_,stands⟩
    · exact fresh_same fresh rfl (elsewhere stands nofun) nofun
    · exact fresh_same fresh rfl (elsewhere stands nofun) nofun
  | reports stands => exact fresh_same fresh rfl (elsewhere stands nofun) nofun
  | finds stands => exact fresh_same fresh rfl (elsewhere stands nofun) nofun
  | misses stands => exact fresh_same fresh rfl (elsewhere stands nofun) nofun
  | forwards stands found =>
    have begun : _ ≠ PeerPhase.unspawned := fun unspawned =>
      (fresh.spawned found unspawned).elim fun datagram seeding => elsewhere stands nofun _ _ seeding
    exact fresh_set fresh found begun (by exact begun) rfl (.inr fun _ _ => ⟨elsewhere stands nofun _ _,nofun⟩)
  | refused stands => exact fresh_same fresh rfl (elsewhere stands nofun) nofun
  | drops stands => exact fresh_same fresh rfl (elsewhere stands nofun) nofun
  | registers stands => exact fresh_registers fresh stands
  | seeds stands found => exact fresh_seeds fresh stands nofun
  | acts cause found ran =>
    have begun := (PeerTask.act_acts ran).begun
    exact fresh_set fresh found begun.1 begun.2 rfl (.inl rfl)
  | tells found telling => exact fresh_set fresh found telling.begun.1 telling.begun.2.1 rfl (.inl rfl)
  | unheard found telling => exact fresh_set fresh found telling.begun.1 telling.begun.2.2 rfl (.inl rfl)
  | removes found stands => exact fresh_set fresh found (by rw [stands]; nofun) (by nofun) rfl (.inl rfl)
  | finishes found stands => exact fresh_set fresh found (by rw [stands]; nofun) (by nofun) rfl (.inl rfl)
  | pushes found => exact fresh_pushes fresh found
  | waits => exact ⟨fresh.seeding,fresh.spawned⟩
  | takes => exact ⟨fresh.seeding,fresh.spawned⟩
  | hangsUp => exact ⟨fresh.seeding,fresh.spawned⟩
  | idle => exact fresh

theorem owned_change (changed : Change action listener next) (fresh : Fresh listener) (owned : Owned listener) : Owned next := by
  cases changed with
  | hears => exact owned_same owned rfl rfl (.inr (.inr (.inr (.inl ⟨_,_,rfl⟩))))
  | fails => exact owned_same owned rfl rfl (.inr (.inr (.inr (.inr ⟨_,rfl⟩))))
  | stops => exact owned_same owned rfl rfl (.inr (.inr (.inl rfl)))
  | reports => exact owned_same owned rfl rfl (.inr (.inr (.inl rfl)))
  | finds stands found => exact owned_finds owned found
  | misses stands absent =>
    exact {
      entry := owned.entry
      older := owned.older
      forwarding := nofun
      dropping := nofun
      registering := by
        intro addr datagram registering
        cases registering
        exact absent }
  | forwards stands found => exact owned_same owned rfl (roster_set found rfl rfl) (.inr (.inl rfl))
  | refused stands found closed => exact owned_refused owned stands found closed
  | drops stands =>
    have nothing : (listener.remove _).peers = listener.peers := remove_absent (owned.dropping stands)
    exact owned_same owned nothing rfl (.inr (.inl rfl))
  | registers stands => exact owned_registers owned stands
  | seeds stands found =>
    obtain ⟨_,there,unspawned,_⟩ := fresh.seeding stands
    rw [found] at there
    cases there
    exact owned_same owned rfl (roster_set found rfl (by rw [unspawned]; rfl)) (.inr (.inl rfl))
  | acts cause found ran =>
    obtain ⟨addr,was,is⟩ := (PeerTask.act_acts ran).keeps
    exact owned_same owned rfl (roster_set found addr (is.trans was.symm)) (.inl rfl)
  | tells found telling => exact owned_same owned rfl (roster_set found rfl telling.keeps.1) (.inl rfl)
  | unheard found telling => exact owned_same owned rfl (roster_set found rfl telling.keeps.2) (.inl rfl)
  | removes found stands => exact owned_removes owned found stands
  | finishes found stands => exact owned_same owned rfl (roster_set found rfl (by rw [stands]; rfl)) (.inl rfl)
  | pushes found => exact owned_same owned rfl (roster_set found rfl rfl) (.inl rfl)
  | waits => exact owned_same owned rfl rfl (.inl rfl)
  | takes => exact owned_same owned rfl rfl (.inl rfl)
  | hangsUp => exact owned_same owned rfl rfl (.inl rfl)
  | idle => exact owned

structure Kept (listener : MultiPeerListener Addr) : Prop where
  fresh : Fresh listener
  owned : Owned listener

theorem step_kept (stepped : listener.step text action = some next) (kept : Kept listener) : Kept next :=
  ⟨fresh_change (step_change stepped) kept.fresh,owned_change (step_change stepped) kept.fresh kept.owned⟩

theorem run_kept (ran : run (step text) bound actions = some listener) : Kept listener :=
  run_keeps step_kept ran ⟨fresh_bound,owned_bound⟩

omit [DecidableEq Addr] in
theorem roster_registered {peer : PeerId} : listener.roster[peer]? = some (peer_addr,true) ↔
    ∃ task, listener.tasks[peer]? = some task ∧ task.peerAddr = peer_addr ∧ task.phase.registered = true := by
  unfold roster
  rw [List.getElem?_map,Option.map_eq_some_iff]
  constructor
  · rintro ⟨task,found,same⟩
    exact ⟨task,found,congrArg Prod.fst same,congrArg Prod.snd same⟩
  · rintro ⟨task,found,addr,registered⟩
    exact ⟨task,found,by rw [addr,registered]⟩

-- An entry goes only with the `peers.remove` of the task that it belongs to.
theorem change_entry (owned : Owned listener) (changed : Change action listener next)
    (entry : listener.peers peer_addr = some peer) :
    next.peers peer_addr = some peer ∨ next.peers peer_addr = none ∧ ∃ task result,
      listener.tasks[peer]? = some task ∧ task.peerAddr = peer_addr ∧ task.phase = .removing result := by
  cases changed with
  | drops stands =>
    left
    have nothing : (listener.remove _).peers = listener.peers := remove_absent (owned.dropping stands)
    exact (congrFun nothing peer_addr).trans entry
  | registers stands =>
    left
    rename_i addr datagram
    have absent := owned.registering stands
    change (if peer_addr = addr then some listener.tasks.length else listener.peers peer_addr) = some peer
    rw [if_neg]
    · exact entry
    · rintro rfl
      rw [entry] at absent
      cases absent
  | removes found stands =>
    rename_i other task result
    change (if peer_addr = task.peerAddr then none else listener.peers peer_addr) = some peer ∨
      (if peer_addr = task.peerAddr then none else listener.peers peer_addr) = none ∧ _
    by_cases same : peer_addr = task.peerAddr
    · right
      rw [if_pos same]
      have here := (owned.entry task.peerAddr other).mpr (by rw [roster_found found,stands]; rfl)
      rw [← same,entry] at here
      cases here
      exact ⟨rfl,task,result,found,same.symm,stands⟩
    · rw [if_neg same]
      exact .inl entry
  | _ => exact .inl entry

theorem peer_map_owned (ran : run (step text) bound actions = some listener) :
    (∀ peer_addr peer, listener.peers peer_addr = some peer ↔
      ∃ task, listener.tasks[peer]? = some task ∧ task.peerAddr = peer_addr ∧ task.phase.registered = true) ∧
    ∀ action next, listener.step text action = some next →
      ∀ peer_addr peer, listener.peers peer_addr = some peer →
        next.peers peer_addr = some peer ∨ next.peers peer_addr = none ∧ ∃ task result,
          listener.tasks[peer]? = some task ∧ task.peerAddr = peer_addr ∧ task.phase = .removing result := by
  have kept := (run_kept ran).owned
  refine ⟨?_,?_⟩
  · intro peer_addr peer
    rw [kept.entry,roster_registered]
  · intro action next stepped peer_addr peer entry
    exact change_entry kept (step_change stepped) entry

-- A task's SSL session cannot be made; its Disconnected is still to be sent when the
-- next datagram of its address starts another task.
def returns : List (ListenerAction Nat) :=
  [.datagram 9 [1],.demux,.demux,.demux,.peer 0 (.create (.newFailed "no memory")),.peer 0 .proceed,
    .datagram 9 [2],.demux,.demux,.demux]

theorem peer_map_owned_returns : ∃ listener, run (step toString) bound returns = some listener ∧
    listener.tasks.length = 2 ∧ listener.peers 9 = some 1 ∧
    ∀ peer_addr peer, listener.peers peer_addr = some peer ↔
      ∃ task, listener.tasks[peer]? = some task ∧ task.peerAddr = peer_addr ∧ task.phase.registered = true := by
  have ran : ∃ listener, run (step toString) bound returns = some listener ∧ listener.tasks.length = 2 ∧
    listener.peers 9 = some 1 := ⟨_,rfl,rfl,rfl⟩
  obtain ⟨listener,ran,two,entry⟩ := ran
  exact ⟨listener,ran,two,entry,(peer_map_owned ran).1⟩

end MultiPeerListener
end NwNetwork.Gridmate
