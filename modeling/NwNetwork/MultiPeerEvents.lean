import NwNetwork.MultiPeerOwnership

namespace NwNetwork.Gridmate
open WireReader Serialize Carrier PartialRuns

def MultiPeerEvent.about {Addr : Type} : MultiPeerEvent Addr → Option Addr
  | .established peer_addr | .data peer_addr _ | .disconnected peer_addr _ => some peer_addr
  | .error _ => none

def MultiPeerEvent.parts {Addr : Type} : MultiPeerEvent Addr → Bool
  | .disconnected _ _ => true
  | _ => false

def served {Addr : Type} (peer_addr : Addr) (records : List Bytes) : List (MultiPeerEvent Addr) :=
  .established peer_addr :: records.map (.data peer_addr)

-- What a task has told while the listener is there, by where the task stands.
def History {Addr : Type} (task : PeerTask Addr) (told : List (MultiPeerEvent Addr)) : Prop :=
  match task.phase with
  | .unspawned | .starting | .accepting | .flushingAccept _ _ _ _ | .handshaking | .announcing =>
    told = [] ∧ task.opened = []
  | .serving | .reading | .flushingWrite _ => told = served task.peerAddr task.opened
  | .delivering plaintext => ∃ before, task.opened = before ++ [plaintext] ∧ told = served task.peerAddr before
  | .removing _ | .parting _ => told = [] ∧ task.opened = [] ∨ told = served task.peerAddr task.opened
  | .leaving | .finished => ∃ fault : PeerFault,
    told = [.disconnected task.peerAddr fault.text] ∧ task.opened = [] ∨
      told = served task.peerAddr task.opened ++ [.disconnected task.peerAddr fault.text]

-- What is left of it in any case: nothing out of order, and no reason that is not
-- a fault.
inductive PeerEvents {Addr : Type} (peer_addr : Addr) (opened : List Bytes) : List (MultiPeerEvent Addr) → Prop where
  | silent : PeerEvents peer_addr opened []
  | refused (fault : PeerFault) : PeerEvents peer_addr opened [.disconnected peer_addr fault.text]
  | serving (seen : List Bytes) (front : seen <+: opened) : PeerEvents peer_addr opened (served peer_addr seen)
  | ended (seen : List Bytes) (front : seen <+: opened) (fault : PeerFault) :
      PeerEvents peer_addr opened (served peer_addr seen ++ [.disconnected peer_addr fault.text])

section Task
variable {Addr : Type} {task after : PeerTask Addr}

theorem history_opening (stands : task.phase.opening = true ∨ task.phase = .announcing) :
    History task told ↔ told = [] ∧ task.opened = [] := by
  unfold History
  rcases stands with stands | stands
  · cases phase : task.phase <;> first | rfl | (rw [phase] at stands; cases stands)
  · rw [stands]

theorem history_running (stands : task.phase.running = true) :
    History task told ↔ told = served task.peerAddr task.opened := by
  unfold History
  cases phase : task.phase <;> first | rfl | (rw [phase] at stands; cases stands)

theorem history_told (history : History task told) (stands : task.phase.opening = true ∨ task.phase.running = true) :
    told = [] ∧ task.opened = [] ∨ told = served task.peerAddr task.opened := by
  rcases stands with stands | stands
  · exact .inl ((history_opening (.inl stands)).mp history)
  · exact .inr ((history_running stands).mp history)

theorem history_events (history : History task told) : PeerEvents task.peerAddr task.opened told := by
  unfold History at history
  split at history
  case h_10 =>
    obtain ⟨before,opened,rfl⟩ := history
    exact .serving before (opened ▸ List.prefix_append _ _)
  case h_11 | h_12 =>
    rcases history with ⟨rfl,_⟩ | rfl
    · exact .silent
    · exact .serving _ (List.prefix_refl _)
  case h_13 | h_14 =>
    obtain ⟨fault,⟨rfl,_⟩ | rfl⟩ := history
    · exact .refused fault
    · exact .ended _ (List.prefix_refl _) fault
  all_goals first
    | (obtain ⟨rfl,_⟩ := history; exact .silent)
    | (cases history; exact .serving _ (List.prefix_refl _))

theorem events_longer (events : PeerEvents peer_addr opened told) (front : opened <+: longer) :
    PeerEvents peer_addr longer told := by
  cases events with
  | silent => exact .silent
  | refused fault => exact .refused fault
  | serving seen before => exact .serving seen (before.trans front)
  | ended seen before fault => exact .ended seen (before.trans front) fault

-- A task that is over blames a fault for it.
def Blames (task : PeerTask Addr) : Prop :=
  ∀ result, task.phase = .removing result ∨ task.phase = .parting result → ∃ fault : PeerFault, result = .error fault.text

theorem acts_history (acts : Acts task true true after) (history : History task told) : History after told := by
  cases acts with
  | opening stands goes =>
    have quiet := (history_opening (.inl stands)).mp history
    exact (history_opening goes).mpr quiet
  | running stands goes => exact (history_running goes).mpr ((history_running stands).mp history)
  | opens stands plaintext =>
    have running : task.phase.running = true := by rw [stands]; rfl
    exact ⟨task.opened,rfl,(history_running running).mp history⟩
  | fails stands =>
    have told := history_told history stands
    exact told
  | closes stands closed => rcases closed with closed | closed <;> cases closed

theorem acts_blames (acts : Acts task true true after) : Blames after := by
  intro result ended
  cases acts with
  | opening stands goes =>
    rcases ended with ended | ended <;> cases ended <;> rcases goes with goes | goes <;> cases goes
  | running stands goes => rcases ended with ended | ended <;> cases ended <;> cases goes
  | opens => rcases ended with ended | ended <;> cases ended
  | fails stands fault =>
    rcases ended with ended | ended <;> cases ended
    exact ⟨fault,rfl⟩
  | closes stands closed => rcases closed with closed | closed <;> cases closed

theorem acts_opened (acts : Acts task inboundOpen outboundOpen after) :
    after.peerAddr = task.peerAddr ∧ task.opened <+: after.opened := by
  cases acts with
  | opens => exact ⟨rfl,List.prefix_append _ _⟩
  | _ => exact ⟨rfl,List.prefix_refl _⟩

theorem tells_history (telling : Tells task event told missed) (history : History task before) (blames : Blames task) :
    History {task with phase := told} (before ++ [event]) := by
  cases telling with
  | established stands =>
    obtain ⟨rfl,opened⟩ := (history_opening (.inr stands)).mp history
    change [] ++ [MultiPeerEvent.established task.peerAddr] = served task.peerAddr task.opened
    rw [opened]
    rfl
  | data stands =>
    unfold History at history
    rw [stands] at history
    obtain ⟨seen,opened,rfl⟩ := history
    change served task.peerAddr seen ++ [_] = served task.peerAddr task.opened
    rw [opened]
    simp [served]
  | disconnected stands =>
    obtain ⟨fault,rfl⟩ := blames _ (.inr stands)
    unfold History at history
    rw [stands] at history
    refine ⟨fault,?_⟩
    rcases history with ⟨rfl,opened⟩ | rfl
    · exact .inl ⟨rfl,opened⟩
    · exact .inr rfl

theorem tells_blames (telling : Tells task event told missed) :
    Blames {task with phase := told} ∧ Blames {task with phase := missed} := by
  have calm {phase : PeerPhase} (removing : ∀ result, phase ≠ .removing result) (parting : ∀ result, phase ≠ .parting result) :
      Blames {task with phase := phase} := by
    intro result ended
    exact ended.elim (fun ended => absurd ended (removing result)) fun ended => absurd ended (parting result)
  cases telling with
  | established => exact ⟨calm nofun nofun,calm nofun nofun⟩
  | data => exact ⟨calm nofun nofun,calm nofun nofun⟩
  | disconnected => exact ⟨calm nofun nofun,calm nofun nofun⟩

theorem Tells.about {task : PeerTask Addr} (telling : Tells task event told missed) : event.about = some task.peerAddr := by
  cases telling <;> rfl

theorem Tells.stands {task : PeerTask Addr} (telling : Tells task event told missed) :
    task.phase.registered = true ∨ event.parts = true := by
  cases telling with
  | established stands => exact .inl (by rw [stands]; rfl)
  | data stands => exact .inl (by rw [stands]; rfl)
  | disconnected stands => exact .inr rfl

end Task

namespace MultiPeerListener
variable {Addr : Type} [DecidableEq Addr] {listener next : MultiPeerListener Addr}

omit [DecidableEq Addr] in
-- A task that has not removed its entry keeps the map, the entry and so both of its
-- channels alive, whether or not the listener is still there.
theorem channels_open (owned : Owned listener) (found : listener.tasks[peer]? = some task)
    (registered : task.phase.registered = true) :
    listener.inboundOpen peer task = true ∧ listener.outboundOpen peer task = true := by
  have entry : listener.peers task.peerAddr = some peer := (owned.entry _ _).mpr (by rw [roster_found found,registered])
  have alive : listener.mapHeld = true := by
    unfold mapHeld
    rw [Bool.or_eq_true,List.any_eq_true]
    exact .inr ⟨task,List.mem_of_getElem? found,by rw [unfinished_registered registered]; rfl⟩
  have holds : listener.holdsEntry peer task = true := by
    unfold holdsEntry
    rw [alive,entry]
    exact beq_self_eq_true _
  unfold inboundOpen outboundOpen
  rw [holds]
  exact ⟨Bool.true_or _,Bool.true_or _⟩

-- What is kept about one task and what it has told. Once the listener is gone
-- nothing is told any more, and only the last part goes on.
structure Recorded (held : Bool) (task : PeerTask Addr) (told : List (MultiPeerEvent Addr)) : Prop where
  blames : Blames task
  history : held = true → History task told
  events : PeerEvents task.peerAddr task.opened told

omit [DecidableEq Addr] in
theorem recorded_tells {task : PeerTask Addr} (recorded : Recorded true task before)
    (telling : Tells task event told missed) : Recorded true {task with phase := told} (before ++ [event]) := by
  have history := tells_history telling (recorded.history rfl) recorded.blames
  exact ⟨(tells_blames telling).1,fun _ => history,history_events history⟩

theorem recorded_turn {task after : PeerTask Addr} {held : Bool} (kept : Kept listener) (found : listener.tasks[peer]? = some task)
    (turn : Turn action listener peer task after told) (recorded : Recorded listener.held task before)
    (stays : held = true → listener.held = true) : Recorded held after (before ++ told) := by
  have frozen {task : PeerTask Addr} (recorded : Recorded listener.held task before) : Recorded held task (before ++ []) := by
    rw [List.append_nil]
    exact ⟨recorded.blames,fun still => recorded.history (stays still),recorded.events⟩
  cases turn with
  | same => exact frozen recorded
  | hears stands live => exact frozen ⟨recorded.blames,recorded.history,recorded.events⟩
  | starts stands =>
    obtain ⟨_,there,unspawned,_⟩ := kept.fresh.seeding stands
    rw [found] at there
    cases there
    apply frozen
    refine ⟨?_,fun still => ?_,recorded.events⟩
    · intro result ended
      rcases ended with ended | ended <;> cases ended
    · have history := recorded.history still
      unfold History at history
      rw [unspawned] at history
      exact history
  | acts cause ran =>
    have acts := PeerTask.act_acts ran
    obtain ⟨_,registered,_⟩ := acts.keeps
    obtain ⟨inbound,outbound⟩ := channels_open kept.owned found registered
    rw [inbound,outbound] at acts
    obtain ⟨addr,opened⟩ := acts_opened acts
    apply frozen
    refine ⟨acts_blames acts,fun still => acts_history acts (recorded.history still),?_⟩
    rw [addr]
    exact events_longer recorded.events opened
  | tells telling here =>
    rw [here] at recorded
    have told := recorded_tells recorded telling
    exact ⟨told.blames,fun _ => told.history rfl,told.events⟩
  | unheard telling gone =>
    apply frozen
    refine ⟨(tells_blames telling).2,fun still => ?_,recorded.events⟩
    rw [gone] at still
    cases still
  | removes stands =>
    apply frozen
    refine ⟨?_,fun still => ?_,recorded.events⟩
    · intro result ended
      rcases ended with ended | ended <;> cases ended
      exact recorded.blames _ (.inl stands)
    · have history := recorded.history still
      unfold History at history
      rw [stands] at history
      exact history
  | finishes stands =>
    apply frozen
    refine ⟨?_,fun still => ?_,recorded.events⟩
    · intro result ended
      rcases ended with ended | ended <;> cases ended
    · have history := recorded.history still
      unfold History at history
      rw [stands] at history
      exact history
  | pushes queue => exact frozen ⟨recorded.blames,recorded.history,recorded.events⟩

omit [DecidableEq Addr] in
theorem setTask_keeps {peer other : PeerId} {task after seen : PeerTask Addr} (found : listener.tasks[peer]? = some task)
    (addr : after.peerAddr = task.peerAddr) (there : listener.tasks[other]? = some seen) :
    ∃ now, (listener.setTask peer after).tasks[other]? = some now ∧ now.peerAddr = seen.peerAddr := by
  by_cases same : peer = other
  · subst same
    rw [found] at there
    cases there
    exact ⟨after,setTask_found found,addr⟩
  · exact ⟨seen,(setTask_other same).trans there,rfl⟩

theorem change_task {other : PeerId} {seen : PeerTask Addr} (changed : Change action listener next) (there : listener.tasks[other]? = some seen) :
    ∃ now, next.tasks[other]? = some now ∧ now.peerAddr = seen.peerAddr := by
  cases changed with
  | forwards stands found => exact setTask_keeps found rfl there
  | registers stands =>
    have inside := (List.getElem?_eq_some_iff.mp there).1
    exact ⟨seen,(List.getElem?_append_left inside).trans there,rfl⟩
  | seeds stands found => exact setTask_keeps found rfl there
  | acts cause found ran => exact setTask_keeps found (PeerTask.act_acts ran).keeps.1 there
  | tells found => exact setTask_keeps found rfl there
  | unheard found => exact setTask_keeps found rfl there
  | removes found => exact setTask_keeps found rfl there
  | finishes found => exact setTask_keeps found rfl there
  | pushes found => exact setTask_keeps found rfl there
  | _ => exact ⟨seen,there,rfl⟩

theorem change_held (changed : Change action listener next) (still : next.held = true) : listener.held = true := by
  cases changed with
  | hangsUp => cases still
  | _ => exact still

-- How the log grows, and with which task standing where.
theorem change_log (changed : Change action listener next) : next.log = listener.log ∨
    (∃ description, next.log = listener.log ++ [(none,.error description)]) ∨
    ∃ peer task event told missed, listener.tasks[peer]? = some task ∧ Tells task event told missed ∧
      next.log = listener.log ++ [(some peer,event)] := by
  cases changed with
  | reports => exact .inr (.inl ⟨_,rfl⟩)
  | tells found telling => exact .inr (.inr ⟨_,_,_,_,_,found,telling,rfl⟩)
  | _ => exact .inl rfl

theorem change_queue (changed : Change action listener next) (queue : listener.heard ++ listener.events = listener.log.map Prod.snd) :
    next.heard ++ next.events = next.log.map Prod.snd := by
  cases changed with
  | reports =>
    rw [List.map_append,← queue]
    exact (List.append_assoc ..).symm
  | tells =>
    change listener.heard ++ (listener.events ++ [_]) = (listener.log ++ [_]).map Prod.snd
    rw [List.map_append,← queue]
    exact (List.append_assoc ..).symm
  | takes taken =>
    rw [taken] at queue
    rw [← queue]
    exact List.append_assoc ..
  | _ => exact queue

-- A task's events come before those of a later task of its address, only the
-- Disconnected may be late.
def Precedes (earlier later : Option PeerId × MultiPeerEvent Addr) : Prop :=
  later.2.parts = false → earlier.2.about = later.2.about →
    ∀ peer other, later.1 = some peer → earlier.1 = some other → other ≤ peer

structure Logged (listener : MultiPeerListener Addr) : Prop where
  recorded : ∀ {peer : PeerId} {task}, listener.tasks[peer]? = some task →
    Recorded listener.held task (toldBy listener.log peer)
  tellers : ∀ {peer event}, (some peer,event) ∈ listener.log →
    ∃ task, listener.tasks[peer]? = some task ∧ event.about = some task.peerAddr
  order : listener.log.Pairwise Precedes
  queue : listener.heard ++ listener.events = listener.log.map Prod.snd

omit [DecidableEq Addr] in
theorem logged_bound : Logged (bound : MultiPeerListener Addr) := ⟨nofun,nofun,List.Pairwise.nil,rfl⟩

omit [DecidableEq Addr] in
theorem told_unknown (logged : Logged listener) (new : listener.tasks[peer]? = none) : toldBy listener.log peer = [] := by
  unfold toldBy
  rw [List.filterMap_eq_nil_iff]
  rintro ⟨teller,event⟩ present
  rw [if_neg]
  rintro rfl
  obtain ⟨task,found,_⟩ := logged.tellers present
  rw [new] at found
  cases found

theorem logged_order (kept : Kept listener) (logged : Logged listener) (changed : Change action listener next) :
    next.log.Pairwise Precedes := by
  rcases change_log changed with same | ⟨description,grown⟩ | ⟨peer,task,event,told,missed,found,telling,grown⟩
  · rw [same]
    exact logged.order
  · rw [grown,List.pairwise_append]
    refine ⟨logged.order,List.pairwise_singleton _ _,?_⟩
    intro earlier _ later last
    rw [List.mem_singleton.mp last]
    exact nofun
  · rw [grown,List.pairwise_append]
    refine ⟨logged.order,List.pairwise_singleton _ _,?_⟩
    rintro ⟨teller,earlier⟩ present later last
    rw [List.mem_singleton.mp last]
    intro going about other teller' same from'
    cases Option.some.inj same
    obtain rfl : teller = some teller' := from'
    obtain ⟨first,there,aim⟩ := logged.tellers present
    have addr : first.peerAddr = task.peerAddr := Option.some.inj (aim.symm.trans (about.trans telling.about))
    by_contra newer
    have gone := kept.owned.older (roster_found found) (addr ▸ roster_found there) (Nat.lt_of_not_le newer)
    rcases telling.stands with registered | parts
    · rw [registered] at gone
      cases gone
    · rw [parts] at going
      cases going

theorem logged_change (kept : Kept listener) (logged : Logged listener) (changed : Change action listener next) : Logged next where
  recorded := by
    intro peer after there
    have stays := change_held changed
    cases change_turned changed there with
    | turn found turn log =>
      rw [log]
      exact recorded_turn kept found turn (logged.recorded found) stays
    | made stands last new log =>
      have silent := told_unknown logged (List.getElem?_eq_none (Nat.le_of_eq last.symm))
      rw [log,silent,new]
      refine ⟨?_,fun _ => ⟨rfl,rfl⟩,.silent⟩
      intro result ended
      rcases ended with ended | ended <;> cases ended
  tellers := by
    intro peer event present
    have old (before : (some peer,event) ∈ listener.log) :
        ∃ task, next.tasks[peer]? = some task ∧ event.about = some task.peerAddr := by
      obtain ⟨task,found,about⟩ := logged.tellers before
      obtain ⟨now,there,addr⟩ := change_task changed found
      exact ⟨now,there,addr ▸ about⟩
    rcases change_log changed with same | ⟨description,grown⟩ | ⟨other,task,event',told,missed,found,telling,grown⟩
    · exact old (same ▸ present)
    · rw [grown,List.mem_append,List.mem_singleton] at present
      rcases present with before | last
      · exact old before
      · cases last
    · rw [grown,List.mem_append,List.mem_singleton] at present
      rcases present with before | last
      · exact old before
      · cases last
        obtain ⟨now,there,addr⟩ := change_task changed found
        exact ⟨now,there,addr ▸ telling.about⟩
  order := logged_order kept logged changed
  queue := change_queue changed logged.queue

def Followed (listener : MultiPeerListener Addr) : Prop := Kept listener ∧ Logged listener

theorem step_followed (stepped : listener.step text action = some next) (followed : Followed listener) : Followed next :=
  ⟨step_kept stepped followed.1,logged_change followed.1 followed.2 (step_change stepped)⟩

theorem run_followed (ran : run (step text) bound actions = some listener) : Followed listener :=
  run_keeps step_followed ran ⟨⟨fresh_bound,owned_bound⟩,logged_bound⟩

theorem peer_events (ran : run (step text) bound actions = some listener) :
    (∀ peer task, listener.tasks[peer]? = some task →
      PeerEvents task.peerAddr task.opened (toldBy listener.log peer) ∧
        (listener.held = true → History task (toldBy listener.log peer))) ∧
    listener.log.Pairwise Precedes ∧ listener.heard ++ listener.events = listener.log.map Prod.snd := by
  obtain ⟨_,logged⟩ := run_followed ran
  refine ⟨?_,logged.order,logged.queue⟩
  intro peer task found
  have recorded := logged.recorded found
  exact ⟨recorded.events,recorded.history⟩

-- A handshake, one record, and the session's end: SSL_read reports a clean close.
def session : List (ListenerAction Nat) :=
  [.datagram 9 [1],.demux,.demux,.demux,.peer 0 (.create .session),.peer 0 (.accept (-1) 2 [] [5]),.peer 0 (.flushed none),
    .peer 0 (.inbound 1),.peer 0 (.accept 1 0 [] []),.peer 0 .proceed,.datagram 9 [2],.demux,.demux,
    .peer 0 (.inbound 1),.peer 0 (.read [7]),.peer 0 .proceed,.nextEvent,.peer 0 (.readStopped 6 0),.peer 0 .proceed,
    .peer 0 .proceed]

theorem peer_events_session : ∃ listener task, run (step toString) bound session = some listener ∧
    listener.tasks[0]? = some task ∧ listener.log.length = 3 ∧ task.opened = [[7]] ∧
    History task (toldBy listener.log 0) := by
  have ran : ∃ listener task, run (step toString) bound session = some listener ∧ listener.tasks[0]? = some task ∧
    listener.log.length = 3 ∧ task.opened = [[7]] ∧ listener.held = true := ⟨_,_,rfl,rfl,rfl,rfl,rfl⟩
  obtain ⟨listener,task,ran,found,long,opened,held⟩ := ran
  exact ⟨listener,task,ran,found,long,opened,((peer_events ran).1 0 task found).2 held⟩

end MultiPeerListener
end NwNetwork.Gridmate
