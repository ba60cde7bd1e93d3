import NwNetwork.MultiPeerOwnership

namespace NwNetwork.Gridmate
open WireReader Serialize Carrier PartialRuns

def DemuxPhase.busy {Addr : Type} : DemuxPhase Addr → Bool
  | .receiving | .exited => false
  | _ => true

namespace MultiPeerListener
variable {Addr : Type} [DecidableEq Addr] {listener next : MultiPeerListener Addr}

-- The event channel is full, and the application can take an event.
def Congested (text : Addr → String) (listener : MultiPeerListener Addr) : Prop :=
  listener.events.length ≥ listenerEventCapacity ∧ ∃ next, listener.step text .nextEvent = some next

theorem emit_or_congested (text : Addr → String) (listener : MultiPeerListener Addr) (teller : Option PeerId)
    (event : MultiPeerEvent Addr) : (∃ next, listener.emit teller event = some next) ∨ Congested text listener := by
  unfold emit
  cases held : listener.held with
  | false => exact .inl ⟨_,rfl⟩
  | true =>
    by_cases room : listener.events.length < listenerEventCapacity
    · left
      exact ⟨_,if_pos room⟩
    · right
      refine ⟨Nat.le_of_not_lt room,?_⟩
      cases queue : listener.events with
      | nil =>
        rw [queue] at room
        exact absurd (Nat.zero_lt_succ _) room
      | cons first rest =>
        unfold step
        rw [held,queue]
        exact ⟨_,rfl⟩

theorem step_peer (text : Addr → String) (found : listener.tasks[peer]? = some task) (action : PeerAction) :
    listener.step text (.peer peer action) = listener.peerStep peer task action := by
  simp [step,found]

theorem act_steps (text : Addr → String) (found : listener.tasks[peer]? = some task)
    (ran : task.act (listener.inboundOpen peer task) (listener.outboundOpen peer task) action = some result) :
    ∃ action next, listener.step text (.peer peer action) = some next := by
  refine ⟨action,?_⟩
  rw [step_peer text found]
  unfold peerStep
  cases action with
  | proceed => cases ran
  | _ => exact ⟨_,by dsimp only; rw [ran]; rfl⟩

theorem tell_or_congested (text : Addr → String) (found : listener.tasks[peer]? = some task)
    (telling : Tells task event told missed) :
    (∃ action next, listener.step text (.peer peer action) = some next) ∨ Congested text listener := by
  rcases emit_or_congested text listener (some peer) event with ⟨next,emitted⟩ | full
  · left
    refine ⟨.proceed,?_⟩
    rw [step_peer text found]
    unfold peerStep proceed
    cases telling with
    | established stands => exact ⟨_,by rw [stands]; dsimp only; rw [emitted]; rfl⟩
    | data stands => exact ⟨_,by rw [stands]; dsimp only; rw [emitted]; rfl⟩
    | disconnected stands => exact ⟨_,by rw [stands]; dsimp only; rw [emitted]; rfl⟩
  · exact .inr full

-- A task with a datagram to read has something to do, or waits for room among the
-- events. What OpenSSL and the socket answer makes no difference to that.
theorem task_or_congested (text : Addr → String) (found : listener.tasks[peer]? = some task)
    (begun : task.phase ≠ .unspawned) (live : task.phase.isFinished = false) (queue : task.inbound ≠ []) :
    (∃ action next, listener.step text (.peer peer action) = some next) ∨ Congested text listener := by
  have acts (action : PeerAction) {result : PeerTask Addr × Option Bytes}
      (ran : task.act (listener.inboundOpen peer task) (listener.outboundOpen peer task) action = some result) :
      (∃ action next, listener.step text (.peer peer action) = some next) ∨ Congested text listener :=
    .inl (act_steps text found ran)
  have proceeds (goes : (listener.proceed peer task).isSome = true) :
      (∃ action next, listener.step text (.peer peer action) = some next) ∨ Congested text listener := by
    obtain ⟨next,proceeded⟩ := Option.isSome_iff_exists.mp goes
    exact .inl ⟨.proceed,next,by rw [step_peer text found]; exact proceeded⟩
  have feeds (written : Int) (next : PeerPhase) : ∃ after, task.feed written next = some after := by
    unfold PeerTask.feed
    cases waiting : task.inbound with
    | nil => exact absurd waiting queue
    | cons datagram rest => exact ⟨_,rfl⟩
  cases stands : task.phase with
  | unspawned => exact absurd stands begun
  | starting => exact acts (.create .session) (by simp only [PeerTask.act,stands]; rfl)
  | accepting => exact acts (.accept 1 0 [] []) (by simp only [PeerTask.act,stands]; rfl)
  | flushingAccept outgoing ret err errors => exact acts (.flushed none) (by simp only [PeerTask.act,stands]; rfl)
  | handshaking =>
    obtain ⟨after,fed⟩ := feeds 0 .accepting
    exact acts (.inbound 0) (by simp only [PeerTask.act,stands,fed]; rfl)
  | announcing => exact tell_or_congested text found (.established stands)
  | serving =>
    obtain ⟨after,fed⟩ := feeds 0 .reading
    exact acts (.inbound 0) (by simp only [PeerTask.act,stands,fed]; rfl)
  | reading => exact acts (.readStopped 2 0) (by simp only [PeerTask.act,stands]; rfl)
  | delivering plaintext => exact tell_or_congested text found (.data stands)
  | flushingWrite outgoing => exact acts (.flushed none) (by simp only [PeerTask.act,stands]; rfl)
  | removing result => exact proceeds (by simp only [proceed,stands,Option.isSome_some])
  | parting result => exact tell_or_congested text found (.disconnected stands)
  | leaving => exact proceeds (by simp only [proceed,stands,Option.isSome_some])
  | finished =>
    rw [stands] at live
    cases live

-- A full inbound channel makes the demux task wait for one peer, and with it every
-- other peer; but it waits for a task that can go on, or for the application.
theorem demux_not_stuck (ran : run (step text) bound actions = some listener) (busy : listener.demux.busy = true) :
    (∃ next, listener.step text .demux = some next) ∨
      (∃ peer peer_addr datagram action next, listener.demux = .forwarding peer peer_addr datagram ∧
        listener.step text (.peer peer action) = some next) ∨ Congested text listener := by
  have kept := run_kept ran
  have moves (goes : ∃ next, listener.demuxStep = some next) : ∃ next, listener.step text .demux = some next := goes
  cases stands : listener.demux with
  | receiving =>
    rw [stands] at busy
    cases busy
  | exited =>
    rw [stands] at busy
    cases busy
  | looking peer_addr datagram =>
    left
    apply moves
    unfold demuxStep
    rw [stands]
    dsimp only
    cases listener.peers peer_addr with
    | none => exact ⟨_,rfl⟩
    | some peer => exact ⟨_,rfl⟩
  | forwarding peer peer_addr datagram =>
    obtain ⟨⟨registered,there⟩,_⟩ := kept.owned.forwarding stands
    unfold roster at there
    rw [List.getElem?_map] at there
    obtain ⟨task,found,_⟩ := Option.map_eq_some_iff.mp there
    cases live : task.phase.isFinished with
    | true =>
      left
      apply moves
      simp only [demuxStep,stands,found]
      exact ⟨_,if_pos live⟩
    | false =>
      by_cases room : task.inbound.length < perPeerDtlsQueue
      · left
        apply moves
        simp only [demuxStep,stands,found]
        exact ⟨_,(if_neg (by rw [live]; nofun)).trans (if_pos room)⟩
      · right
        have begun : task.phase ≠ .unspawned := by
          intro unspawned
          obtain ⟨_,seeding⟩ := kept.fresh.spawned found unspawned
          rw [stands] at seeding
          cases seeding
        have queue : task.inbound ≠ [] := by
          intro empty
          rw [empty] at room
          exact room (Nat.zero_lt_succ _)
        rcases task_or_congested text found begun live queue with ⟨action,next,stepped⟩ | full
        · exact .inl ⟨peer,peer_addr,datagram,action,next,rfl,stepped⟩
        · exact .inr full
  | dropping peer_addr =>
    left
    apply moves
    simp only [demuxStep,stands]
    exact ⟨_,rfl⟩
  | registering peer_addr datagram =>
    left
    apply moves
    simp only [demuxStep,stands]
    exact ⟨_,rfl⟩
  | seeding peer datagram =>
    left
    apply moves
    obtain ⟨task,found,unspawned,fed,inbound,_⟩ := kept.fresh.seeding stands
    simp only [demuxStep,stands,found]
    exact ⟨_,if_pos (by rw [inbound]; exact Nat.zero_lt_succ _)⟩
  | failing description =>
    rcases emit_or_congested text listener none (.error description) with ⟨next,emitted⟩ | full
    · left
      apply moves
      simp only [demuxStep,stands,emitted]
      exact ⟨_,rfl⟩
    · exact .inr (.inr full)

theorem demux_not_stuck_first : ∃ listener, run (step toString) bound [.datagram 9 [1],.demux,.demux] = some listener ∧
    listener.demux.busy = true ∧ ((∃ next, listener.step toString .demux = some next) ∨
      (∃ peer peer_addr datagram action next, listener.demux = .forwarding peer peer_addr datagram ∧
        listener.step toString (.peer peer action) = some next) ∨ Congested toString listener) := by
  have ran : ∃ listener, run (step toString) bound [.datagram 9 [1],.demux,.demux] = some listener ∧
    listener.demux.busy = true := ⟨_,rfl,rfl⟩
  obtain ⟨listener,ran,busy⟩ := ran
  exact ⟨listener,ran,busy,demux_not_stuck ran busy⟩

end MultiPeerListener
end NwNetwork.Gridmate
