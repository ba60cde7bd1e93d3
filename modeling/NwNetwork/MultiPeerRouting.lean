import NwNetwork.MultiPeerOwnership

namespace NwNetwork.Gridmate
open WireReader Serialize Carrier PartialRuns

theorem set_split {list : List α} (found : list[place]? = some entry) :
    ∃ before after, list = before ++ entry :: after ∧ before.length = place ∧
      ∀ other, list.set place other = before ++ other :: after := by
  induction list generalizing place with
  | nil => cases found
  | cons head rest ih =>
    cases place with
    | zero =>
      cases found
      exact ⟨[],rest,rfl,rfl,fun _ => rfl⟩
    | succ place =>
      obtain ⟨before,after,split,size,others⟩ := ih found
      exact ⟨head :: before,after,congrArg _ split,congrArg (· + 1) size,fun other => congrArg (head :: ·) (others other)⟩

section Task
variable {Addr : Type} {task after : PeerTask Addr}

theorem Acts.queue (acts : Acts task inbound outbound after) : after.fed ++ after.inbound = task.fed ++ task.inbound := by
  cases acts with
  | opening stands goes fed inbound queued => exact queued
  | running stands goes fed inbound outbound written queued => exact queued
  | opens => rfl
  | fails stands fault fed inbound outbound queued => exact queued
  | closes => rfl

theorem Tells.unfinished (telling : Tells task event told missed) : task.phase.isFinished = false := by
  cases telling with
  | established stands => rw [stands]; rfl
  | data stands => rw [stands]; rfl
  | disconnected stands => rw [stands]; rfl

end Task

namespace MultiPeerListener
variable {Addr : Type} [DecidableEq Addr] {listener next : MultiPeerListener Addr}

def fromAddr (received : List (Addr × Bytes)) (addr : Addr) : List Bytes :=
  received.flatMap fun datagram => if datagram.1 = addr then [datagram.2] else []

-- What has come through the inbound channels of an address's tasks, those that came
-- first in front.
def routed (tasks : List (PeerTask Addr)) (addr : Addr) : List Bytes :=
  tasks.flatMap fun task => if task.peerAddr = addr then task.fed ++ task.inbound else []

-- The datagram that the demux task has not passed on yet.
def inHand (listener : MultiPeerListener Addr) (addr : Addr) : List Bytes :=
  match listener.demux with
  | .looking peer_addr datagram | .forwarding _ peer_addr datagram | .registering peer_addr datagram =>
    if peer_addr = addr then [datagram] else []
  | .seeding peer datagram => if listener.tasks[peer]?.map PeerTask.peerAddr = some addr then [datagram] else []
  | _ => []

def Unfinished (listener : MultiPeerListener Addr) (addr : Addr) : Prop :=
  ∀ task ∈ listener.tasks, task.peerAddr = addr → task.phase.isFinished = false

structure Routed (listener : MultiPeerListener Addr) (addr : Addr) : Prop where
  order : (routed listener.tasks addr ++ listener.inHand addr).Sublist (fromAddr listener.received addr)
  all : Unfinished listener addr → routed listener.tasks addr ++ listener.inHand addr = fromAddr listener.received addr

theorem routed_same {tasks : List (PeerTask Addr)} {task after : PeerTask Addr} (found : tasks[peer]? = some task) (addr : after.peerAddr = task.peerAddr)
    (queued : after.fed ++ after.inbound = task.fed ++ task.inbound) (aim : Addr) :
    routed (tasks.set peer after) aim = routed tasks aim := by
  obtain ⟨before,rest,rfl,_,others⟩ := set_split found
  rw [others]
  unfold routed
  rw [List.flatMap_append,List.flatMap_append,List.flatMap_cons,List.flatMap_cons,addr,queued]

-- A datagram for the last task of its address comes behind all that went before.
theorem routed_last {tasks : List (PeerTask Addr)} {task after : PeerTask Addr} {peer : Nat} (found : tasks[peer]? = some task)
    (addr : after.peerAddr = task.peerAddr) (queued : after.fed ++ after.inbound = task.fed ++ task.inbound ++ [datagram])
    (newest : ∀ {other : Nat} {later : PeerTask Addr}, tasks[other]? = some later → later.peerAddr = task.peerAddr → other ≤ peer)
    (aim : Addr) : routed (tasks.set peer after) aim =
      routed tasks aim ++ if task.peerAddr = aim then [datagram] else [] := by
  obtain ⟨before,rest,rfl,size,others⟩ := set_split found
  have behind (same : task.peerAddr = aim) :
      (rest.flatMap fun task => if task.peerAddr = aim then task.fed ++ task.inbound else []) = [] := by
    rw [List.flatMap_eq_nil_iff]
    intro later present
    rw [if_neg]
    intro also
    obtain ⟨place,there⟩ := List.getElem?_of_mem present
    have position : (before ++ task :: rest)[before.length + 1 + place]? = some later := by
      rw [List.getElem?_append_right (by omega),show before.length + 1 + place - before.length = place + 1 by omega]
      exact there
    have limit : before.length + 1 + place ≤ peer := newest position (also.trans same.symm)
    omega
  rw [others]
  unfold routed
  rw [List.flatMap_append,List.flatMap_append,List.flatMap_cons,List.flatMap_cons,addr,queued]
  by_cases same : task.peerAddr = aim
  · rw [if_pos same,if_pos same,if_pos same,behind same]
    simp
  · rw [if_neg same,if_neg same,if_neg same,List.append_nil]

-- Nothing changes for the address: the same channels and the same datagram in hand,
-- and no task that was finished comes back.
theorem routed_still (same : Routed listener aim) (received : next.received = listener.received)
    (tasks : routed next.tasks aim = routed listener.tasks aim) (hand : next.inHand aim = listener.inHand aim)
    (unfinished : Unfinished next aim → Unfinished listener aim) : Routed next aim := by
  constructor
  · rw [received,tasks,hand]
    exact same.order
  · intro going
    rw [received,tasks,hand]
    exact same.all (unfinished going)

theorem inHand_set {task after : PeerTask Addr} (found : listener.tasks[peer]? = some task)
    (addr : after.peerAddr = task.peerAddr) (tasks : next.tasks = listener.tasks.set peer after)
    (demux : next.demux = listener.demux) (aim : Addr) : next.inHand aim = listener.inHand aim := by
  unfold inHand
  rw [demux,tasks]
  split
  · rfl
  · rfl
  · rfl
  · rename_i other datagram stands
    by_cases here : peer = other
    · subst here
      rw [List.getElem?_set_self (List.getElem?_eq_some_iff.mp found).1,found,Option.map_some,Option.map_some,addr]
    · rw [List.getElem?_set_ne here]
  · rfl

omit [DecidableEq Addr] in
theorem unfinished_set {peer : PeerId} {task after : PeerTask Addr} (found : listener.tasks[peer]? = some task)
    (addr : after.peerAddr = task.peerAddr) (tasks : next.tasks = listener.tasks.set peer after)
    (finished : task.phase.isFinished = true → after.phase.isFinished = true) (going : Unfinished next aim) :
    Unfinished listener aim := by
  intro seen present about
  obtain ⟨place,there⟩ := List.getElem?_of_mem present
  by_cases here : peer = place
  · subst here
    rw [found] at there
    cases there
    have now : after ∈ next.tasks := by
      rw [tasks]
      exact List.mem_of_getElem? (List.getElem?_set_self (List.getElem?_eq_some_iff.mp found).1)
    have live := going after now (addr.trans about)
    cases stands : task.phase.isFinished with
    | false => rfl
    | true => exact (finished stands).symm.trans live
  · apply going seen _ about
    rw [tasks]
    exact List.mem_of_getElem? ((List.getElem?_set_ne here).trans there)

-- A step of a task that leaves its inbound channel alone, or reads from it.
theorem routed_set {task after : PeerTask Addr} (same : Routed listener aim) (found : listener.tasks[peer]? = some task)
    (tasks : next.tasks = listener.tasks.set peer after) (demux : next.demux = listener.demux)
    (received : next.received = listener.received) (addr : after.peerAddr = task.peerAddr)
    (queued : after.fed ++ after.inbound = task.fed ++ task.inbound)
    (finished : task.phase.isFinished = true → after.phase.isFinished = true) : Routed next aim := by
  apply routed_still same received _ (inHand_set found addr tasks demux aim) (unfinished_set found addr tasks finished)
  rw [tasks]
  exact routed_same found addr queued aim

-- The datagram in hand goes to the last task of its address.
theorem routed_passed {task after : PeerTask Addr} (same : Routed listener aim) (found : listener.tasks[peer]? = some task)
    (tasks : next.tasks = listener.tasks.set peer after) (received : next.received = listener.received)
    (addr : after.peerAddr = task.peerAddr) (queued : after.fed ++ after.inbound = task.fed ++ task.inbound ++ [datagram])
    (newest : ∀ {other : Nat} {later : PeerTask Addr}, listener.tasks[other]? = some later →
      later.peerAddr = task.peerAddr → other ≤ peer)
    (finished : task.phase.isFinished = true → after.phase.isFinished = true)
    (hand : listener.inHand aim = if task.peerAddr = aim then [datagram] else []) (none : next.inHand aim = []) :
    Routed next aim := by
  have moved : routed next.tasks aim ++ next.inHand aim = routed listener.tasks aim ++ listener.inHand aim := by
    rw [tasks,routed_last found addr queued newest aim,none,hand,List.append_nil]
  constructor
  · rw [received,moved]
    exact same.order
  · intro going
    rw [received,moved]
    exact same.all (unfinished_set found addr tasks finished going)

theorem routed_change (kept : Kept listener) (changed : Change action listener next) (same : Routed listener aim) :
    Routed next aim := by
  have calm (tasks : next.tasks = listener.tasks) (received : next.received = listener.received)
      (hand : next.inHand aim = listener.inHand aim) : Routed next aim :=
    routed_still same received (by rw [tasks]) hand (by unfold Unfinished; rw [tasks]; exact id)
  have empty (received : next.received = listener.received) (stands : listener.inHand aim = [])
      (stays : next.inHand aim = []) (tasks : next.tasks = listener.tasks) : Routed next aim :=
    calm tasks received (stays.trans stands.symm)
  cases changed with
  | hears stands peer_addr datagram =>
    have none : listener.inHand aim = [] := by unfold inHand; rw [stands]
    have heard : fromAddr (listener.received ++ [(peer_addr,datagram)]) aim =
        fromAddr listener.received aim ++ if peer_addr = aim then [datagram] else [] := by
      unfold fromAddr
      rw [List.flatMap_append,List.flatMap_singleton]
    constructor
    · change (routed listener.tasks aim ++ (if peer_addr = aim then [datagram] else [])).Sublist
        (fromAddr (listener.received ++ [(peer_addr,datagram)]) aim)
      have order := same.order
      rw [none,List.append_nil] at order
      rw [heard]
      exact order.append (List.Sublist.refl _)
    · intro going
      have all := same.all going
      rw [none,List.append_nil] at all
      change routed listener.tasks aim ++ (if peer_addr = aim then [datagram] else []) =
        fromAddr (listener.received ++ [(peer_addr,datagram)]) aim
      rw [heard,all]
  | fails stands => exact empty rfl (by unfold inHand; rw [stands]) rfl rfl
  | stops stands =>
    refine empty rfl ?_ rfl rfl
    unfold inHand
    rcases stands with stands | ⟨_,stands⟩ <;> rw [stands]
  | reports stands => exact empty rfl (by unfold inHand; rw [stands]) rfl rfl
  | finds stands => exact calm rfl rfl (by unfold inHand; rw [stands])
  | misses stands => exact calm rfl rfl (by unfold inHand; rw [stands])
  | forwards stands found live =>
    obtain ⟨⟨_,here⟩,newest⟩ := kept.owned.forwarding stands
    rw [roster_found found] at here
    cases here
    refine routed_passed same found rfl rfl rfl (List.append_assoc ..).symm ?_ id ?_ rfl
    · intro other later there about
      exact newest (about ▸ roster_found there)
    · unfold inHand
      rw [stands]
  | refused stands found closed =>
    constructor
    · have order := same.order
      change (routed listener.tasks aim ++ []).Sublist (fromAddr listener.received aim)
      exact ((List.Sublist.refl _).append (List.nil_sublist _)).trans order
    · intro going
      rename_i peer peer_addr datagram task
      obtain ⟨⟨_,here⟩,_⟩ := kept.owned.forwarding stands
      rw [roster_found found] at here
      cases here
      have apart : task.peerAddr ≠ aim := by
        intro about
        have live := going task (List.mem_of_getElem? found) about
        rw [closed] at live
        cases live
      have all := same.all going
      have none : listener.inHand aim = [] := by
        unfold inHand
        rw [stands]
        exact if_neg apart
      rw [none] at all
      exact all
  | drops stands => exact empty rfl (by unfold inHand; rw [stands]) rfl rfl
  | registers stands =>
    rename_i peer_addr datagram
    have grown : routed (listener.tasks ++ [PeerTask.new peer_addr]) aim = routed listener.tasks aim := by
      unfold routed
      rw [List.flatMap_append,List.flatMap_singleton]
      simp [PeerTask.new]
    have hand : inHand ({listener with
        tasks := listener.tasks ++ [PeerTask.new peer_addr], demux := .seeding listener.tasks.length datagram }.insert
          peer_addr listener.tasks.length) aim = listener.inHand aim := by
      unfold inHand insert
      rw [stands]
      dsimp only
      rw [List.getElem?_concat_length]
      simp [PeerTask.new]
    refine routed_still same rfl grown hand ?_
    intro going task present
    exact going task (List.mem_append_left _ present)
  | seeds stands found =>
    rename_i peer datagram task
    obtain ⟨_,there,unspawned,fed,inbound,last⟩ := kept.fresh.seeding stands
    rw [found] at there
    cases there
    refine routed_passed same found rfl rfl rfl (List.append_assoc ..).symm ?_ ?_ ?_ rfl
    · intro other later there about
      have place := (List.getElem?_eq_some_iff.mp there).1
      rw [last] at place
      exact Nat.le_of_lt_succ place
    · intro finished
      rw [unspawned] at finished
      cases finished
    · unfold inHand
      rw [stands]
      dsimp only
      rw [found]
      simp
  | acts cause found ran =>
    have acts := PeerTask.act_acts ran
    refine routed_set same found rfl rfl rfl acts.keeps.1 acts.queue ?_
    intro finished
    rw [unfinished_registered acts.keeps.2.1] at finished
    cases finished
  | tells found telling =>
    refine routed_set same found rfl rfl rfl rfl rfl ?_
    intro finished
    rw [telling.unfinished] at finished
    cases finished
  | unheard found telling =>
    refine routed_set same found rfl rfl rfl rfl rfl ?_
    intro finished
    rw [telling.unfinished] at finished
    cases finished
  | removes found stands =>
    refine routed_set same found rfl rfl rfl rfl rfl ?_
    intro finished
    rw [stands] at finished
    cases finished
  | finishes found stands => exact routed_set same found rfl rfl rfl rfl rfl fun _ => rfl
  | pushes found => exact routed_set same found rfl rfl rfl rfl rfl id
  | waits => exact ⟨same.order,same.all⟩
  | takes => exact ⟨same.order,same.all⟩
  | hangsUp => exact ⟨same.order,same.all⟩
  | idle => exact same

structure Routing (listener : MultiPeerListener Addr) : Prop where
  kept : Kept listener
  routed : ∀ addr, Routed listener addr

theorem step_routing (stepped : listener.step text action = some next) (routing : Routing listener) : Routing next :=
  ⟨step_kept stepped routing.kept,fun addr => routed_change routing.kept (step_change stepped) (routing.routed addr)⟩

theorem routing_bound : Routing (bound : MultiPeerListener Addr) :=
  ⟨⟨fresh_bound,owned_bound⟩,fun _ => ⟨List.Sublist.refl _,fun _ => rfl⟩⟩

-- Every task is given datagrams of its own address only, in the order of their
-- arrival and none twice; one that no task was given came while a task of the
-- address had ended.
theorem datagrams_routed (ran : run (step text) bound actions = some listener) (addr : Addr) :
    (routed listener.tasks addr ++ listener.inHand addr).Sublist (fromAddr listener.received addr) ∧
      (Unfinished listener addr → routed listener.tasks addr ++ listener.inHand addr = fromAddr listener.received addr) := by
  have routing := run_keeps step_routing ran routing_bound
  exact ⟨(routing.routed addr).order,(routing.routed addr).all⟩

-- Two clients whose datagrams arrive by turns.
def byTurns : List (ListenerAction Nat) :=
  [.datagram 8 [1],.demux,.demux,.demux,.datagram 9 [2],.demux,.demux,.demux,.peer 0 (.create .session),
    .peer 0 (.accept (-1) 2 [] []),.peer 0 (.inbound 1),.datagram 8 [3],.demux,.demux,.datagram 9 [4],.demux,.demux]

theorem datagrams_routed_byTurns : ∃ listener, run (step toString) bound byTurns = some listener ∧
    routed listener.tasks 8 = [[1],[3]] ∧ routed listener.tasks 9 = [[2],[4]] ∧
    (routed listener.tasks 8 ++ listener.inHand 8).Sublist (fromAddr listener.received 8) := by
  have ran : ∃ listener, run (step toString) bound byTurns = some listener ∧ routed listener.tasks 8 = [[1],[3]] ∧
    routed listener.tasks 9 = [[2],[4]] := ⟨_,rfl,rfl,rfl⟩
  obtain ⟨listener,ran,first,second⟩ := ran
  exact ⟨listener,ran,first,second,(datagrams_routed ran 8).1⟩

end MultiPeerListener
end NwNetwork.Gridmate
