import NwNetwork.MultiPeerEvents

namespace NwNetwork.Gridmate
open WireReader Serialize Carrier PartialRuns

-- The answers of OpenSSL and of the socket that end a task.
def PeerTask.refusedBy {Addr : Type} (task : PeerTask Addr) : PeerAction → Bool
  | .create .session => false
  | .create _ => true
  | .accept ret err _ _ => ret ≠ 1 && !wants err
  | .flushed failed => failed.isSome
  | .inbound written =>
    match task.inbound with
    | [] => false
    | datagram :: _ => written ≠ datagram.length
  | .readStopped err _ => !wants err
  | .outbound ret _ _ => ret ≤ 0
  | _ => false

-- Neither over nor about to be.
def PeerPhase.lasting : PeerPhase → Bool
  | .removing _ | .parting _ | .leaving | .finished => false
  | .flushingAccept _ ret err _ => ret = 1 || wants err
  | _ => true

section Task
variable {Addr : Type} {task after : PeerTask Addr}

theorem lasting_registered {phase : PeerPhase} (lasting : phase.lasting = true) : phase.registered = true := by
  cases phase <;> first | rfl | cases lasting

theorem afterAccept_lasting (fine : (decide (ret = 1) || wants err) = true) :
    (afterAccept ret err errors).lasting = true := by
  unfold afterAccept
  split
  · rfl
  · rename_i other
    rw [decide_eq_false other,Bool.false_or] at fine
    rw [fine]
    rfl

theorem afterFeed_lasting {written : Int} {datagram : Bytes} (whole : written = datagram.length)
    (lasting : next.lasting = true) : (afterFeed written datagram next).lasting = true := by
  unfold afterFeed bioFeed
  rw [if_neg (not_not.mpr whole)]
  exact lasting

theorem feed_lasting {taken : Int} (fed : task.feed taken next = some after)
    (whole : task.refusedBy (.inbound taken) = false) (lasting : next.lasting = true) : after.phase.lasting = true := by
  unfold PeerTask.feed at fed
  unfold PeerTask.refusedBy at whole
  split at fed
  · cases fed
  · rename_i datagram rest queue
    cases Option.some.inj fed
    rw [queue] at whole
    exact afterFeed_lasting (by simpa using whole) lasting

-- With both channels open, only such an answer ends a task.
theorem act_lasting (ran : task.act true true action = some (after,outgoing)) (fine : task.refusedBy action = false)
    (lasting : task.phase.lasting = true) : after.phase.lasting = true := by
  unfold PeerTask.act at ran
  cases action with
  | create created =>
    dsimp only at ran
    split at ran
    · cases ran; rfl
    · cases fine
    · cases fine
    · cases ran
  | accept ret err errors outgoing =>
    have going : (decide (ret = 1) || wants err) = true := by
      simp only [PeerTask.refusedBy] at fine
      cases again : wants err with
      | true => exact Bool.or_true _
      | false => simpa [again] using fine
    dsimp only at ran
    split at ran
    · cases ran
      cases outgoing.isEmpty with
      | true => exact afterAccept_lasting going
      | false => exact going
    · cases ran
  | flushed failed =>
    dsimp only at ran
    split at ran
    · rename_i stands
      rw [stands] at lasting
      cases ran
      exact afterAccept_lasting lasting
    · cases ran; rfl
    · cases fine
    · cases fine
    · cases ran
  | inbound written =>
    dsimp only at ran
    split at ran
    · obtain ⟨fed,ok,same⟩ := Option.map_eq_some_iff.mp ran
      cases same
      exact feed_lasting ok fine rfl
    · obtain ⟨fed,ok,same⟩ := Option.map_eq_some_iff.mp ran
      cases same
      exact feed_lasting ok fine rfl
    · cases ran
  | inboundClosed => cases ran
  | read plaintext =>
    dsimp only at ran
    split at ran
    · split at ran
      · cases ran
      · cases ran; rfl
    · cases ran
  | readStopped err code =>
    have again : wants err = true := by simpa [PeerTask.refusedBy] using fine
    dsimp only at ran
    split at ran
    · cases ran
      rw [again]
      rfl
    · cases ran
  | outbound ret err outgoing =>
    have sent : ¬ret ≤ 0 := by simpa [PeerTask.refusedBy] using fine
    dsimp only at ran
    split at ran
    · obtain ⟨written,ok,same⟩ := Option.map_eq_some_iff.mp ran
      cases same
      unfold PeerTask.write at ok
      split at ok
      · cases ok
      · rw [if_neg sent] at ok
        cases Option.some.inj ok
        cases outgoing.isEmpty <;> rfl
    · cases ran
  | outboundClosed => cases ran
  | proceed => cases ran

theorem tells_lasting (telling : Tells task event told missed) (lasting : task.phase.lasting = true) :
    told.lasting = true ∧ missed.lasting = true := by
  cases telling with
  | established => exact ⟨rfl,rfl⟩
  | data => exact ⟨rfl,rfl⟩
  | disconnected stands =>
    rw [stands] at lasting
    cases lasting

end Task

namespace MultiPeerListener
variable {Addr : Type} [DecidableEq Addr] {listener next : MultiPeerListener Addr}

def Lasting (listener : MultiPeerListener Addr) : Prop :=
  ∀ {peer : PeerId} {task}, listener.tasks[peer]? = some task → task.phase.lasting = true

-- Nothing in an action ends the task that it is about.
def Faultless (listener : MultiPeerListener Addr) (action : ListenerAction Addr) : Prop :=
  ∀ peer taken task, action = .peer peer taken → listener.tasks[peer]? = some task → task.refusedBy taken = false

theorem lasting_change (kept : Kept listener) (changed : Change action listener next)
    (faultless : Faultless listener action) (lasting : Lasting listener) : Lasting next := by
  intro peer after there
  cases change_turned changed there with
  | made stands last new =>
    rw [new]
    rfl
  | turn found turn =>
    have before := lasting found
    cases turn with
    | same => exact before
    | hears => exact before
    | starts => rfl
    | acts cause ran =>
      obtain ⟨inbound,outbound⟩ := channels_open kept.owned found (lasting_registered before)
      rw [inbound,outbound] at ran
      exact act_lasting ran (faultless _ _ _ cause found) before
    | tells telling => exact (tells_lasting telling before).1
    | unheard telling => exact (tells_lasting telling before).2
    | removes stands =>
      rw [stands] at before
      cases before
    | finishes stands =>
      rw [stands] at before
      cases before
    | pushes => exact before

structure Persisting (listener : MultiPeerListener Addr) : Prop where
  kept : Kept listener
  lasting : Lasting listener

theorem step_persisting (faultless : Faultless listener action) (stepped : listener.step text action = some next)
    (persisting : Persisting listener) : Persisting next :=
  ⟨step_kept stepped persisting.kept,
    lasting_change persisting.kept (step_change stepped) faultless persisting.lasting⟩

-- The peer tasks share the map that has the senders of their own channels: dropping
-- the listener closes nothing, and only a fault ends a task.
theorem tasks_outlive_listener (faultless : EachStep (step text) bound actions Faultless)
    (ran : run (step text) bound actions = some listener) (found : listener.tasks[peer]? = some task) :
    listener.peers task.peerAddr = some peer ∧ listener.inboundOpen peer task = true ∧
      listener.outboundOpen peer task = true := by
  have persisting := run_keeps_admitted step_persisting faultless ran ⟨⟨fresh_bound,owned_bound⟩,nofun⟩
  have registered := lasting_registered (persisting.lasting found)
  have entry := (persisting.kept.owned.entry task.peerAddr peer).mpr (by rw [roster_found found,registered])
  exact ⟨entry,channels_open persisting.kept.owned found registered⟩

-- The listener is dropped after the handshake, and the demux task stops.
def abandoned : List (ListenerAction Nat) :=
  [.datagram 9 [1],.demux,.demux,.demux,.peer 0 (.create .session),.peer 0 (.accept 1 0 [] []),.peer 0 .proceed,
    .hangUp,.shutdown]

theorem tasks_outlive_listener_dropped : ∃ listener task, run (step toString) bound abandoned = some listener ∧
    listener.held = false ∧ listener.exited = true ∧ listener.tasks[0]? = some task ∧
    listener.peers task.peerAddr = some 0 ∧ listener.inboundOpen 0 task = true := by
  have ran : ∃ listener task, run (step toString) bound abandoned = some listener ∧ listener.held = false ∧
    listener.exited = true ∧ listener.tasks[0]? = some task := ⟨_,_,rfl,rfl,rfl,rfl⟩
  obtain ⟨listener,task,ran,gone,exited,found⟩ := ran
  have faultless : EachStep (step toString) bound abandoned Faultless := by
    rintro before _ after state split _ peer taken task rfl found
    have present : ListenerAction.peer peer taken ∈ abandoned := by simp [split]
    simp only [abandoned,List.mem_cons,List.not_mem_nil,or_false,reduceCtorEq,false_or,ListenerAction.peer.injEq] at present
    rcases present with ⟨_,rfl⟩ | ⟨_,rfl⟩ | ⟨_,rfl⟩ <;> rfl
  obtain ⟨entry,inbound,_⟩ := tasks_outlive_listener faultless ran found
  exact ⟨listener,task,ran,gone,exited,found,entry,inbound⟩

end MultiPeerListener
end NwNetwork.Gridmate
