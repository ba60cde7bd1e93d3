import NwNetwork.MultiPeerListener
import NwNetwork.PartialRuns

namespace NwNetwork.Gridmate
open WireReader Serialize Carrier PartialRuns

-- The events that a task has to send, and where it goes on when they are sent or
-- when there is nobody left to hear them.
inductive Tells : PeerTask Addr → MultiPeerEvent Addr → PeerPhase → PeerPhase → Prop where
  | established (stands : task.phase = .announcing) : Tells task (.established task.peerAddr) .serving .serving
  | data (stands : task.phase = .delivering plaintext) : Tells task (.data task.peerAddr plaintext) .reading .serving
  | disconnected (stands : task.phase = .parting result) :
      Tells task (.disconnected task.peerAddr (MultiPeerListener.reasonOf result)) .leaving .leaving

-- The faults that can end a task, as OpenSSL and the socket report them.
inductive PeerFault where
  | newFailed (err : String)
  | bioFailed (err : DriverError)
  | accept (err : Int) (errors : List String) (fatal : wants err = false)
  | sendTo (err : String)
  | feed (err : DriverError)
  | read (err : Int) (code : Nat) (fatal : wants err = false)
  | write (err : Int)

def PeerFault.text : PeerFault → String
  | .newFailed err => "Ssl::new: " ++ err
  | .bioFailed err => "bio_new: " ++ err.text
  | .accept err errors _ => "SSL_accept error " ++ toString err ++ ": " ++ joinErrors errors
  | .sendTo err => "send_to: " ++ err
  | .feed err => "bio_feed: " ++ err.text
  | .read err code _ => "SSL_read " ++ toString err ++ " (0x" ++ hex code ++ ")"
  | .write err => "SSL_write " ++ toString err

-- In the handshake, and after it.
def PeerPhase.opening : PeerPhase → Bool
  | .starting | .accepting | .flushingAccept _ _ _ _ | .handshaking => true
  | _ => false

def PeerPhase.running : PeerPhase → Bool
  | .serving | .reading | .flushingWrite _ => true
  | _ => false

-- All that a task can do on its own. A datagram goes from the queue to OpenSSL.
inductive Acts (task : PeerTask Addr) (inboundOpen outboundOpen : Bool) : PeerTask Addr → Prop where
  | opening (stands : task.phase.opening = true) (goes : phase.opening = true ∨ phase = .announcing)
      (fed inbound : List Bytes) (queued : fed ++ inbound = task.fed ++ task.inbound) :
      Acts task inboundOpen outboundOpen {task with phase := phase,fed := fed,inbound := inbound}
  | running (stands : task.phase.running = true) (goes : phase.running = true)
      (fed inbound outbound written : List Bytes) (queued : fed ++ inbound = task.fed ++ task.inbound) :
      Acts task inboundOpen outboundOpen
        {task with phase := phase,fed := fed,inbound := inbound,outbound := outbound,written := written}
  | opens (stands : task.phase = .reading) (plaintext : Bytes) :
      Acts task inboundOpen outboundOpen
        {task with phase := .delivering plaintext,opened := task.opened ++ [plaintext]}
  | fails (stands : task.phase.opening = true ∨ task.phase.running = true) (fault : PeerFault)
      (fed inbound outbound : List Bytes) (queued : fed ++ inbound = task.fed ++ task.inbound) :
      Acts task inboundOpen outboundOpen
        {task with phase := .removing (.error fault.text),fed := fed,inbound := inbound,outbound := outbound}
  | closes (stands : task.phase.opening = true ∨ task.phase.running = true)
      (closed : inboundOpen = false ∨ outboundOpen = false) (result : Except String Unit) :
      Acts task inboundOpen outboundOpen {task with phase := .removing result}

theorem afterAccept_cases (ret err : Int) (errors : List String) :
    afterAccept ret err errors = .announcing ∨ afterAccept ret err errors = .handshaking ∨
      ∃ fault : PeerFault, afterAccept ret err errors = .removing (.error fault.text) := by
  unfold afterAccept
  split
  · exact .inl rfl
  · split
    · rename_i fatal
      exact .inr (.inr ⟨.accept err errors (by simpa using fatal),rfl⟩)
    · exact .inr (.inl rfl)

theorem afterFeed_cases (written : Int) (datagram : Bytes) (next : PeerPhase) :
    afterFeed written datagram next = next ∨
      ∃ fault : PeerFault, afterFeed written datagram next = .removing (.error fault.text) := by
  unfold afterFeed
  split
  · rename_i err failed
    exact .inr ⟨.feed err,rfl⟩
  · exact .inl rfl

namespace PeerTask
variable {task after : PeerTask Addr}

theorem feed_acts {taken : Int} (fed : task.feed taken next = some after)
    (stands : task.phase.opening = true ∧ next.opening = true ∨ task.phase.running = true ∧ next.running = true) :
    Acts task inboundOpen outboundOpen after := by
  unfold feed at fed
  split at fed
  · cases fed
  · rename_i datagram rest queue
    cases Option.some.inj fed
    have queued : (task.fed ++ [datagram]) ++ rest = task.fed ++ task.inbound := by
      rw [queue,List.append_assoc]
      rfl
    rcases afterFeed_cases taken datagram next with on | ⟨fault,failed⟩
    · rw [on]
      rcases stands with ⟨stands,goes⟩ | ⟨stands,goes⟩
      · exact .opening stands (.inl goes) _ _ queued
      · exact .running stands goes _ _ _ _ queued
    · rw [failed]
      exact .fails (stands.imp And.left And.left) fault _ _ _ queued

theorem write_acts (written : task.write ret err outgoing = some after) (stands : task.phase.running = true) :
    Acts task inboundOpen outboundOpen after := by
  unfold write at written
  split at written
  · cases written
  · split at written
    · cases Option.some.inj written
      exact .fails (.inr stands) (.write err) _ _ _ rfl
    · cases Option.some.inj written
      apply Acts.running stands _ _ _ _ _ rfl
      cases outgoing.isEmpty <;> rfl

theorem accept_acts (stands : task.phase.opening = true) :
    Acts task inboundOpen outboundOpen {task with phase := afterAccept ret err errors} := by
  rcases afterAccept_cases ret err errors with on | on | ⟨fault,on⟩ <;> rw [on]
  · exact .opening stands (.inr rfl) _ _ rfl
  · exact .opening stands (.inl rfl) _ _ rfl
  · exact .fails (.inl stands) fault _ _ _ rfl

theorem act_acts (ran : task.act inboundOpen outboundOpen action = some (after,outgoing)) :
    Acts task inboundOpen outboundOpen after := by
  unfold act at ran
  cases action with
  | create created =>
    dsimp only at ran
    split at ran
    · rename_i stands
      cases ran
      exact .opening (by rw [stands]; rfl) (.inl rfl) _ _ rfl
    · rename_i stands
      cases ran
      exact .fails (.inl (by rw [stands]; rfl)) (.newFailed _) _ _ _ rfl
    · rename_i stands
      cases ran
      exact .fails (.inl (by rw [stands]; rfl)) (.bioFailed _) _ _ _ rfl
    · cases ran
  | accept ret err errors outgoing =>
    dsimp only at ran
    split at ran
    · rename_i stands
      have opening : task.phase.opening = true := by rw [stands]; rfl
      cases ran
      cases outgoing.isEmpty with
      | true => exact accept_acts opening
      | false => exact .opening opening (.inl rfl) _ _ rfl
    · cases ran
  | flushed failed =>
    dsimp only at ran
    split at ran
    · rename_i stands
      cases ran
      exact accept_acts (by rw [stands]; rfl)
    · rename_i stands
      cases ran
      exact .running (by rw [stands]; rfl) rfl _ _ _ _ rfl
    · rename_i stands
      cases ran
      exact .fails (.inl (by rw [stands]; rfl)) (.sendTo _) _ _ _ rfl
    · rename_i stands
      cases ran
      exact .fails (.inr (by rw [stands]; rfl)) (.sendTo _) _ _ _ rfl
    · cases ran
  | inbound written =>
    dsimp only at ran
    split at ran
    · rename_i stands
      obtain ⟨fed,ok,same⟩ := Option.map_eq_some_iff.mp ran
      cases same
      exact feed_acts ok (.inl ⟨by rw [stands]; rfl,rfl⟩)
    · rename_i stands
      obtain ⟨fed,ok,same⟩ := Option.map_eq_some_iff.mp ran
      cases same
      exact feed_acts ok (.inr ⟨by rw [stands]; rfl,rfl⟩)
    · cases ran
  | inboundClosed =>
    dsimp only at ran
    split at ran
    · cases ran
    · rename_i closed
      have shut : inboundOpen = false := by
        cases inboundOpen with
        | false => rfl
        | true => exact absurd rfl closed
      split at ran
      · rename_i stands
        cases ran
        exact .closes (.inl (by rw [stands]; rfl)) (.inl shut) _
      · rename_i stands
        cases ran
        exact .closes (.inr (by rw [stands]; rfl)) (.inl shut) _
      · cases ran
  | read plaintext =>
    dsimp only at ran
    split at ran
    · rename_i stands
      split at ran
      · cases ran
      · cases ran
        exact .opens stands _
    · cases ran
  | readStopped err code =>
    dsimp only at ran
    split at ran
    · rename_i stands
      have running : task.phase.running = true := by rw [stands]; rfl
      cases ran
      cases again : wants err with
      | true => exact .running running rfl _ _ _ _ rfl
      | false => exact .fails (.inr running) (.read err code again) _ _ _ rfl
    · cases ran
  | outbound ret err outgoing =>
    dsimp only at ran
    split at ran
    · rename_i stands
      obtain ⟨written,ok,same⟩ := Option.map_eq_some_iff.mp ran
      cases same
      exact write_acts ok (by rw [stands]; rfl)
    · cases ran
  | outboundClosed =>
    dsimp only at ran
    split at ran
    · cases ran
    · rename_i closed
      have shut : outboundOpen = false := by
        cases outboundOpen with
        | false => rfl
        | true => exact absurd rfl closed
      split at ran
      · rename_i stands
        cases ran
        exact .closes (.inr (by rw [stands]; rfl)) (.inr shut) _
      · cases ran
  | proceed => cases ran

end PeerTask

theorem opening_registered {phase : PeerPhase} (opening : phase.opening = true) : phase.registered = true := by
  cases phase <;> first | rfl | cases opening

theorem running_registered {phase : PeerPhase} (running : phase.running = true) : phase.registered = true := by
  cases phase <;> first | rfl | cases running

theorem finished_unregistered {phase : PeerPhase} (finished : phase.isFinished = true) : phase.registered = false := by
  cases phase <;> first | rfl | cases finished

theorem unfinished_registered {phase : PeerPhase} (registered : phase.registered = true) : phase.isFinished = false := by
  cases phase <;> first | rfl | cases registered

theorem Acts.keeps {task after : PeerTask Addr} (acts : Acts task inboundOpen outboundOpen after) :
    after.peerAddr = task.peerAddr ∧ task.phase.registered = true ∧ after.phase.registered = true := by
  have stood (stands : task.phase.opening = true ∨ task.phase.running = true) : task.phase.registered = true :=
    stands.elim opening_registered running_registered
  cases acts with
  | opening stands goes =>
    refine ⟨rfl,opening_registered stands,?_⟩
    rcases goes with goes | rfl
    · exact opening_registered goes
    · rfl
  | running stands goes => exact ⟨rfl,running_registered stands,running_registered goes⟩
  | opens stands => exact ⟨rfl,by rw [stands]; rfl,rfl⟩
  | fails stands => exact ⟨rfl,stood stands,rfl⟩
  | closes stands => exact ⟨rfl,stood stands,rfl⟩

theorem Tells.keeps {task : PeerTask Addr} (telling : Tells task event told missed) :
    told.registered = task.phase.registered ∧ missed.registered = task.phase.registered := by
  cases telling with
  | established stands => rw [stands]; exact ⟨rfl,rfl⟩
  | data stands => rw [stands]; exact ⟨rfl,rfl⟩
  | disconnected stands => rw [stands]; exact ⟨rfl,rfl⟩

theorem Acts.begun {task after : PeerTask Addr} (acts : Acts task inboundOpen outboundOpen after) :
    task.phase ≠ .unspawned ∧ after.phase ≠ .unspawned := by
  have stood (stands : task.phase.opening = true ∨ task.phase.running = true) : task.phase ≠ .unspawned := by
    intro unspawned
    rw [unspawned] at stands
    rcases stands with stands | stands <;> cases stands
  cases acts with
  | opening stands goes =>
    refine ⟨stood (.inl stands),?_⟩
    rintro rfl
    rcases goes with goes | goes <;> cases goes
  | running stands goes =>
    refine ⟨stood (.inr stands),?_⟩
    rintro rfl
    cases goes
  | opens stands => exact ⟨by rw [stands]; nofun,nofun⟩
  | fails stands => exact ⟨stood stands,nofun⟩
  | closes stands => exact ⟨stood stands,nofun⟩

theorem Tells.begun {task : PeerTask Addr} (telling : Tells task event told missed) :
    task.phase ≠ .unspawned ∧ told ≠ .unspawned ∧ missed ≠ .unspawned := by
  cases telling with
  | established stands => exact ⟨by rw [stands]; nofun,nofun,nofun⟩
  | data stands => exact ⟨by rw [stands]; nofun,nofun,nofun⟩
  | disconnected stands => exact ⟨by rw [stands]; nofun,nofun,nofun⟩

namespace MultiPeerListener
variable {Addr : Type} [DecidableEq Addr]

-- What any step of the demux task, of a peer task or of the application changes.
inductive Change (action : ListenerAction Addr) (listener : MultiPeerListener Addr) : MultiPeerListener Addr → Prop where
  | hears (stands : listener.demux = .receiving) (peer_addr : Addr) (datagram : Bytes) :
      Change action listener {listener with
        demux := .looking peer_addr datagram, received := listener.received ++ [(peer_addr,datagram)] }
  | fails (stands : listener.demux = .receiving) (description : String) :
      Change action listener {listener with demux := .failing description}
  | stops (stands : listener.demux = .receiving ∨ ∃ description, listener.demux = .failing description)
      (gone : listener.held = false) : Change action listener {listener with demux := .exited}
  | reports (stands : listener.demux = .failing description) (held : listener.held = true)
      (room : listener.events.length < listenerEventCapacity) :
      Change action listener {listener with
        demux := .exited
        events := listener.events ++ [.error description]
        log := listener.log ++ [(none,.error description)] }
  | finds (stands : listener.demux = .looking peer_addr datagram) (found : listener.peers peer_addr = some peer) :
      Change action listener {listener with demux := .forwarding peer peer_addr datagram}
  | misses (stands : listener.demux = .looking peer_addr datagram) (absent : listener.peers peer_addr = none) :
      Change action listener {listener with demux := .registering peer_addr datagram}
  | forwards (stands : listener.demux = .forwarding peer peer_addr datagram) (found : listener.tasks[peer]? = some task)
      (live : task.phase.isFinished = false) :
      Change action listener ({listener with demux := .receiving}.setTask peer {task with inbound := task.inbound ++ [datagram]})
  | refused (stands : listener.demux = .forwarding peer peer_addr datagram) (found : listener.tasks[peer]? = some task)
      (closed : task.phase.isFinished = true) : Change action listener {listener with demux := .dropping peer_addr}
  | drops (stands : listener.demux = .dropping peer_addr) :
      Change action listener ({listener with demux := .receiving}.remove peer_addr)
  | registers (stands : listener.demux = .registering peer_addr datagram) :
      Change action listener ({listener with
        tasks := listener.tasks ++ [PeerTask.new peer_addr], demux := .seeding listener.tasks.length datagram }.insert
          peer_addr listener.tasks.length)
  | seeds (stands : listener.demux = .seeding peer datagram) (found : listener.tasks[peer]? = some task) :
      Change action listener ({listener with demux := .receiving}.setTask peer
        {task with inbound := task.inbound ++ [datagram],phase := .starting})
  | acts (cause : action = .peer peer taken) (found : listener.tasks[peer]? = some task)
      (ran : task.act (listener.inboundOpen peer task) (listener.outboundOpen peer task) taken = some (after,outgoing))
      (sent : List (Addr × Bytes)) : Change action listener ({listener with sent := sent}.setTask peer after)
  | tells (found : listener.tasks[peer]? = some task) (telling : Tells task event next unheard)
      (held : listener.held = true) (room : listener.events.length < listenerEventCapacity) :
      Change action listener ({listener with
        events := listener.events ++ [event], log := listener.log ++ [(some peer,event)] }.setTask peer
          {task with phase := next})
  | unheard (found : listener.tasks[peer]? = some task) (telling : Tells task event next unheard)
      (gone : listener.held = false) : Change action listener (listener.setTask peer {task with phase := unheard})
  | removes (found : listener.tasks[peer]? = some task) (stands : task.phase = .removing result) :
      Change action listener ((listener.remove task.peerAddr).setTask peer {task with phase := .parting result})
  | finishes (found : listener.tasks[peer]? = some task) (stands : task.phase = .leaving) :
      Change action listener (listener.setTask peer {task with phase := .finished})
  | pushes {task : PeerTask Addr} (found : listener.tasks[peer]? = some task) (queue : List Bytes) (sending : List (PeerId × Bytes)) :
      Change action listener ({listener with sending := sending}.setTask peer {task with outbound := queue})
  | waits (sending : List (PeerId × Bytes)) : Change action listener {listener with sending := sending}
  | takes (queue : listener.events = event :: rest) :
      Change action listener {listener with events := rest,heard := listener.heard ++ [event]}
  | hangsUp : Change action listener {listener with held := false}
  | idle : Change action listener listener

variable {listener next : MultiPeerListener Addr}

omit [DecidableEq Addr] in
theorem emit_cases (emitted : listener.emit peer event = some next) :
    listener.held = false ∧ next = listener ∨
      listener.held = true ∧ listener.events.length < listenerEventCapacity ∧
        next = {listener with events := listener.events ++ [event],log := listener.log ++ [(peer,event)]} := by
  unfold emit at emitted
  cases held : listener.held with
  | false =>
    rw [held] at emitted
    exact .inl ⟨rfl,(Option.some.inj emitted).symm⟩
  | true =>
    rw [held] at emitted
    split at emitted
    · rename_i closed
      cases closed
    · split at emitted
      · rename_i room
        exact .inr ⟨rfl,room,(Option.some.inj emitted).symm⟩
      · cases emitted

theorem tells_change {told missed : PeerPhase} (found : listener.tasks[peer]? = some task)
    (telling : Tells task event told missed) (goes : phase = if listener.held then told else missed)
    (sent : (listener.emit (some peer) event).map (·.setTask peer {task with phase := phase}) = some next) :
    Change action listener next := by
  obtain ⟨after,emitted,rfl⟩ := Option.map_eq_some_iff.mp sent
  rcases emit_cases emitted with ⟨gone,rfl⟩ | ⟨held,room,rfl⟩
  · rw [gone,if_neg Bool.false_ne_true] at goes
    exact goes ▸ .unheard found telling gone
  · rw [held,if_pos rfl] at goes
    exact goes ▸ .tells found telling held room

theorem proceed_change (found : listener.tasks[peer]? = some task) (ran : listener.proceed peer task = some next) :
    Change action listener next := by
  unfold proceed at ran
  split at ran
  · rename_i stands
    exact tells_change found (.established stands) (ite_self _).symm ran
  · rename_i plaintext stands
    exact tells_change found (.data stands) rfl ran
  · rename_i result stands
    cases Option.some.inj ran
    exact .removes found stands
  · rename_i result stands
    exact tells_change found (.disconnected stands) (ite_self _).symm ran
  · rename_i stands
    cases Option.some.inj ran
    exact .finishes found stands
  · cases ran

theorem peerStep_change (found : listener.tasks[peer]? = some task)
    (ran : listener.peerStep peer task action = some next) : Change (.peer peer action) listener next := by
  unfold peerStep at ran
  split at ran
  · exact proceed_change found ran
  · obtain ⟨⟨after,outgoing⟩,acted,done⟩ := Option.bind_eq_some_iff.mp ran
    cases Option.some.inj done
    exact .acts rfl found acted _

theorem demuxStep_change (ran : listener.demuxStep = some next) : Change action listener next := by
  unfold demuxStep at ran
  split at ran
  · cases ran
  · cases ran
  · rename_i peer_addr datagram stands
    split at ran
    · rename_i peer found
      cases Option.some.inj ran
      exact .finds stands found
    · rename_i absent
      cases Option.some.inj ran
      exact .misses stands absent
  · rename_i peer peer_addr datagram stands
    obtain ⟨task,found,rest⟩ := Option.bind_eq_some_iff.mp ran
    split at rest
    · rename_i closed
      cases Option.some.inj rest
      exact .refused stands found closed
    · rename_i live
      split at rest
      · cases Option.some.inj rest
        exact .forwards stands found (Bool.eq_false_iff.mpr live)
      · cases rest
  · rename_i peer_addr stands
    cases Option.some.inj ran
    exact .drops stands
  · rename_i peer_addr datagram stands
    cases Option.some.inj ran
    exact .registers stands
  · rename_i peer datagram stands
    obtain ⟨task,found,rest⟩ := Option.bind_eq_some_iff.mp ran
    split at rest
    · cases Option.some.inj rest
      exact .seeds stands found
    · cases rest
  · rename_i description stands
    obtain ⟨after,emitted,rfl⟩ := Option.map_eq_some_iff.mp ran
    rcases emit_cases emitted with ⟨gone,rfl⟩ | ⟨held,room,rfl⟩
    · exact .stops (.inr ⟨_,stands⟩) gone
    · exact .reports stands held room

theorem sendResumed_change (ran : listener.sendResumed text place = some (result,next)) : Change action listener next := by
  unfold sendResumed at ran
  obtain ⟨⟨peer,plaintext⟩,waiting,rest⟩ := Option.bind_eq_some_iff.mp ran
  obtain ⟨task,found,rest⟩ := Option.bind_eq_some_iff.mp rest
  dsimp only at rest
  split at rest
  · cases Option.some.inj rest
    exact .waits _
  · split at rest
    · cases Option.some.inj rest
      exact .pushes found _ _
    · cases rest

theorem trySendTo_change (ran : listener.trySendTo text peer_addr plaintext = .ok next) : Change action listener next := by
  unfold trySendTo at ran
  split at ran
  · cases ran
  · split at ran
    · cases ran
    · rename_i task found
      split at ran
      · cases ran
      · split at ran
        · cases Except.ok.inj ran
          exact .pushes found _ listener.sending
        · cases ran

theorem step_change (ran : listener.step text action = some next) : Change action listener next := by
  unfold step at ran
  cases action with
  | datagram peer_addr datagram =>
    dsimp only at ran
    split at ran
    · rename_i stands
      cases Option.some.inj ran
      exact .hears stands _ _
    · cases ran
  | recvFailed err =>
    dsimp only at ran
    split at ran
    · rename_i stands
      cases Option.some.inj ran
      exact .fails stands _
    · cases ran
  | shutdown =>
    dsimp only at ran
    split at ran
    · rename_i stands
      split at ran
      · cases ran
      · rename_i gone
        cases Option.some.inj ran
        exact .stops (.inl stands) (Bool.eq_false_iff.mpr gone)
    · cases ran
  | demux => exact demuxStep_change ran
  | peer peer action =>
    obtain ⟨task,found,rest⟩ := Option.bind_eq_some_iff.mp ran
    exact peerStep_change found rest
  | sendTo peer_addr plaintext =>
    dsimp only at ran
    split at ran
    · cases ran
    · split at ran
      · cases Option.some.inj ran
        exact .idle
      · cases Option.some.inj ran
        exact .waits _
  | sendResumed place =>
    obtain ⟨⟨result,after⟩,resumed,rfl⟩ := Option.map_eq_some_iff.mp ran
    exact sendResumed_change resumed
  | sendCancelled place =>
    cases Option.some.inj ran
    exact .waits _
  | trySendTo peer_addr plaintext =>
    dsimp only at ran
    split at ran
    · cases ran
    · split at ran
      · cases Option.some.inj ran
        exact .idle
      · rename_i after sent
        cases Option.some.inj ran
        exact trySendTo_change sent
  | nextEvent =>
    dsimp only at ran
    split at ran
    · cases ran
    · split at ran
      · cases ran
      · rename_i event rest queue
        cases Option.some.inj ran
        exact .takes queue
  | hangUp =>
    dsimp only at ran
    split at ran
    · cases Option.some.inj ran
      exact .hangsUp
    · cases ran

omit [DecidableEq Addr] in
theorem setTask_found {peer : PeerId} {task after : PeerTask Addr} (found : listener.tasks[peer]? = some task) :
    (listener.setTask peer after).tasks[peer]? = some after :=
  List.getElem?_set_self (List.getElem?_eq_some_iff.mp found).1

omit [DecidableEq Addr] in
theorem setTask_other {peer other : PeerId} (apart : peer ≠ other) :
    (listener.setTask peer after).tasks[other]? = listener.tasks[other]? := List.getElem?_set_ne apart

omit [DecidableEq Addr] in
theorem setTask_cases {peer other : PeerId} {after found : PeerTask Addr}
    (there : (listener.setTask peer after).tasks[other]? = some found) :
    other = peer ∧ found = after ∨ peer ≠ other ∧ listener.tasks[other]? = some found := by
  by_cases same : peer = other
  · subst same
    unfold setTask at there
    rw [List.getElem?_set_self'] at there
    obtain ⟨_,_,rfl⟩ := Option.map_eq_some_iff.mp there
    exact .inl ⟨rfl,rfl⟩
  · exact .inr ⟨same,(setTask_other same).symm.trans there⟩

-- The events that came from one task.
def toldBy (log : List (Option PeerId × MultiPeerEvent Addr)) (peer : PeerId) : List (MultiPeerEvent Addr) :=
  log.filterMap fun entry => if entry.1 = some peer then some entry.2 else none

omit [DecidableEq Addr] in
theorem toldBy_own (log : List (Option PeerId × MultiPeerEvent Addr)) (peer : PeerId) (event : MultiPeerEvent Addr) :
    toldBy (log ++ [(some peer,event)]) peer = toldBy log peer ++ [event] := by
  simp [toldBy]

omit [DecidableEq Addr] in
theorem toldBy_other (log : List (Option PeerId × MultiPeerEvent Addr)) (event : MultiPeerEvent Addr)
    (apart : teller ≠ some peer) : toldBy (log ++ [(teller,event)]) peer = toldBy log peer := by
  simp [toldBy,apart]

-- What a step changes about one task and the events it has sent.
inductive Turn (action : ListenerAction Addr) (listener : MultiPeerListener Addr) (peer : PeerId) (task : PeerTask Addr) :
    PeerTask Addr → List (MultiPeerEvent Addr) → Prop where
  | same : Turn action listener peer task task []
  | hears (stands : listener.demux = .forwarding peer peer_addr datagram) (live : task.phase.isFinished = false) :
      Turn action listener peer task {task with inbound := task.inbound ++ [datagram]} []
  | starts (stands : listener.demux = .seeding peer datagram) :
      Turn action listener peer task {task with inbound := task.inbound ++ [datagram],phase := .starting} []
  | acts (cause : action = .peer peer taken)
      (ran : task.act (listener.inboundOpen peer task) (listener.outboundOpen peer task) taken = some (after,outgoing)) :
      Turn action listener peer task after []
  | tells (telling : Tells task event told missed) (held : listener.held = true) :
      Turn action listener peer task {task with phase := told} [event]
  | unheard (telling : Tells task event told missed) (gone : listener.held = false) :
      Turn action listener peer task {task with phase := missed} []
  | removes (stands : task.phase = .removing result) :
      Turn action listener peer task {task with phase := .parting result} []
  | finishes (stands : task.phase = .leaving) : Turn action listener peer task {task with phase := .finished} []
  | pushes (queue : List Bytes) : Turn action listener peer task {task with outbound := queue} []

-- A task that is there after a step was there before it or has just been made.
inductive Turned (action : ListenerAction Addr) (listener next : MultiPeerListener Addr) (peer : PeerId) (after : PeerTask Addr) : Prop where
  | turn (found : listener.tasks[peer]? = some task) (turn : Turn action listener peer task after told)
      (log : toldBy next.log peer = toldBy listener.log peer ++ told)
  | made (stands : listener.demux = .registering peer_addr datagram) (last : peer = listener.tasks.length)
      (new : after = PeerTask.new peer_addr) (log : next.log = listener.log)

omit [DecidableEq Addr] in
theorem turned_same {task : PeerTask Addr} (found : listener.tasks[peer]? = some task)
    (log : toldBy next.log peer = toldBy listener.log peer) : Turned action listener next peer task :=
  .turn found .same (by rw [log,List.append_nil])

omit [DecidableEq Addr] in
theorem turned_set {other : PeerId} {task after : PeerTask Addr} (found : listener.tasks[peer]? = some task)
    (turn : Turn action listener peer task after told) (log : toldBy next.log peer = toldBy listener.log peer ++ told)
    (others : peer ≠ other → toldBy next.log other = toldBy listener.log other)
    (there : (listener.setTask peer after).tasks[other]? = some seen) : Turned action listener next other seen := by
  rcases setTask_cases there with ⟨rfl,rfl⟩ | ⟨apart,there⟩
  · exact .turn found turn log
  · exact turned_same there (others apart)

theorem change_turned {seen : PeerTask Addr} (changed : Change action listener next) (there : next.tasks[other]? = some seen) :
    Turned action listener next other seen := by
  cases changed with
  | hears => exact turned_same there rfl
  | fails => exact turned_same there rfl
  | stops => exact turned_same there rfl
  | reports => exact turned_same there (toldBy_other _ _ nofun)
  | finds => exact turned_same there rfl
  | misses => exact turned_same there rfl
  | forwards stands found live => exact turned_set found (.hears stands live) (List.append_nil _).symm (fun _ => rfl) there
  | refused => exact turned_same there rfl
  | drops => exact turned_same there rfl
  | registers stands =>
    have place : (listener.tasks ++ [PeerTask.new _])[other]? = some seen := there
    rw [List.getElem?_append] at place
    split at place
    · exact turned_same place rfl
    · rename_i after
      obtain ⟨inside,same⟩ := List.getElem?_eq_some_iff.mp place
      rw [List.length_singleton] at inside
      rw [List.getElem_singleton] at same
      have last := Nat.sub_eq_zero_iff_le.mp (Nat.lt_one_iff.mp inside)
      exact .made stands (Nat.le_antisymm last (Nat.le_of_not_lt after)) same.symm rfl
  | seeds stands found => exact turned_set found (.starts stands) (List.append_nil _).symm (fun _ => rfl) there
  | acts cause found ran =>
    exact turned_set found (.acts cause ran) (List.append_nil _).symm (fun _ => rfl) there
  | tells found telling held =>
    exact turned_set found (.tells telling held) (toldBy_own _ _ _)
      (fun apart => toldBy_other _ _ fun same => apart (Option.some.inj same)) there
  | unheard found telling gone =>
    exact turned_set found (.unheard telling gone) (List.append_nil _).symm (fun _ => rfl) there
  | removes found stands => exact turned_set found (.removes stands) (List.append_nil _).symm (fun _ => rfl) there
  | finishes found stands => exact turned_set found (.finishes stands) (List.append_nil _).symm (fun _ => rfl) there
  | pushes found queue => exact turned_set found (.pushes queue) (List.append_nil _).symm (fun _ => rfl) there
  | waits => exact turned_same there rfl
  | takes => exact turned_same there rfl
  | hangsUp => exact turned_same there rfl
  | idle => exact turned_same there rfl

end MultiPeerListener
end NwNetwork.Gridmate
