import NwNetwork.SessionService
import NwNetwork.HubFraming
import NwNetwork.StateRuns

namespace NwNetwork.Gridmate
open WireReader Serialize Carrier StateRuns

namespace SessionServiceActor
variable {GridSession : Type} {actor : SessionServiceActor GridSession}

def Closed (actor : SessionServiceActor GridSession) (session_id : SessionId) : Prop :=
  actor.sessions[session_id]? = some none

structure Lifecycle (actor : SessionServiceActor GridSession) : Prop where
  active : actor.activeSessions = actor.sessions.countP Option.isSome
  readyOnce : ∀ session_id, actor.events.count (.ready session_id) ≤ 1
  disconnectedOnce : ∀ session_id, actor.events.countP (Event.disconnects session_id) ≤ 1
  readyFirst : ∀ session_id, actor.events.Pairwise fun before after =>
    before.disconnects session_id = true → after ≠ .ready session_id

-- What two events in a row of announcements may be.
def Announced (before after : Event) : Prop :=
  ∀ session_id, (before = .ready session_id → after ≠ .ready session_id) ∧
    (before.disconnects session_id = true → after.disconnects session_id = false ∧ after ≠ .ready session_id)

-- The announcements are told by the slots: whoever was disconnected has an empty
-- slot, and whoever was ready has one or is still marked.
structure Accounted (actor : SessionServiceActor GridSession) : Prop where
  active : actor.activeSessions = actor.sessions.countP Option.isSome
  announced : actor.events.Pairwise Announced
  readyNoted : ∀ session_id, .ready session_id ∈ actor.events →
    actor.Closed session_id ∨ actor.readyEventsSent session_id = true
  disconnectedClosed : ∀ session_id, ∀ event ∈ actor.events, event.disconnects session_id = true → actor.Closed session_id
  closedTold : actor.listening = true → ∀ session_id, actor.Closed session_id →
    ∃ event ∈ actor.events, event.disconnects session_id = true

theorem new_accounted : Accounted (new : SessionServiceActor GridSession) := by
  refine ⟨rfl,.nil,nofun,nofun,?_⟩
  intro _ session_id closed
  cases closed

theorem count_pairwise {events : List Event} {chosen : Event → Bool}
    (apart : events.Pairwise fun before after => chosen before = true → chosen after = false) :
    events.countP chosen ≤ 1 := by
  induction events with
  | nil => exact Nat.zero_le _
  | cons event events ih =>
    obtain ⟨first,others⟩ := List.pairwise_cons.mp apart
    cases here : chosen event with
    | false => rw [List.countP_cons_of_neg (by rw [here]; exact Bool.false_ne_true)]; exact ih others
    | true =>
      have none_after : events.countP chosen = 0 := List.countP_eq_zero.mpr fun other member => by
        rw [first other member here]
        exact Bool.false_ne_true
      exact Nat.le_of_eq (by rw [List.countP_cons_of_pos here,none_after])

theorem accounted_sound (accounted : Accounted actor) : Lifecycle actor := by
  refine ⟨accounted.active,?_,?_,?_⟩
  · intro session_id
    apply count_pairwise
    apply accounted.announced.imp
    intro before after announced ready
    have same := (announced session_id).1 (beq_iff_eq.mp ready)
    exact beq_eq_false_iff_ne.mpr same
  · intro session_id
    apply count_pairwise
    exact accounted.announced.imp fun announced gone => ((announced session_id).2 gone).1
  · intro session_id
    exact accounted.announced.imp fun announced gone => ((announced session_id).2 gone).2

-- Neither a Ready nor a Disconnected.
def Neutral (event : Event) : Prop := ∀ session_id, event ≠ .ready session_id ∧ event.disconnects session_id = false

theorem send_listening (listening : actor.listening = true) (event : Event) :
    actor.send event = {actor with events := actor.events ++ [event]} := if_pos listening

theorem send_deaf (deaf : actor.listening = false) (event : Event) : actor.send event = actor := by
  unfold send
  rw [deaf]
  rfl

theorem pairwise_snoc {events : List Event} (apart : events.Pairwise Announced)
    (last : ∀ before ∈ events, Announced before event) : (events ++ [event]).Pairwise Announced := by
  rw [List.pairwise_append]
  refine ⟨apart,List.pairwise_singleton _ _,?_⟩
  intro before member after single
  rw [List.mem_singleton.mp single]
  exact last before member

theorem send_neutral (accounted : Accounted actor) (neutral : Neutral event) : Accounted (actor.send event) := by
  cases listening : actor.listening with
  | false => rw [send_deaf listening]; exact accounted
  | true =>
    rw [send_listening listening]
    refine ⟨accounted.active,?_,?_,?_,?_⟩
    · apply pairwise_snoc accounted.announced
      intro before _ session_id
      exact ⟨fun _ => (neutral session_id).1,fun _ => ⟨(neutral session_id).2,(neutral session_id).1⟩⟩
    · intro session_id member
      rcases List.mem_append.mp member with old | new
      · exact accounted.readyNoted session_id old
      · exact absurd (List.mem_singleton.mp new).symm (neutral session_id).1
    · intro session_id before member gone
      rcases List.mem_append.mp member with old | new
      · exact accounted.disconnectedClosed session_id before old gone
      · rw [List.mem_singleton.mp new,(neutral session_id).2] at gone
        cases gone
    · intro heard session_id closed
      obtain ⟨event,member,gone⟩ := accounted.closedTold heard session_id closed
      exact ⟨event,List.mem_append_left _ member,gone⟩

theorem sends_neutral (events : List Event) (accounted : Accounted actor) (neutral : ∀ event ∈ events, Neutral event) :
    Accounted (events.foldl send actor) := by
  induction events generalizing actor with
  | nil => exact accounted
  | cons event events ih =>
    exact ih (send_neutral accounted (neutral event List.mem_cons_self))
      fun other member => neutral other (List.mem_cons_of_mem _ member)

theorem mark_same (marks : SessionId → Bool) (session_id : SessionId) (mark : Bool) :
    markSession marks session_id mark session_id = mark := if_pos rfl

theorem mark_set (marks : SessionId → Bool) (session_id : SessionId) (marked : marks other = true) :
    markSession marks session_id true other = true := by
  unfold markSession
  split
  · rfl
  · exact marked

theorem ready_accounted (accounted : Accounted actor)
    (unclosed : actor.listening = true → actor.readyEventsSent session_id = false → ¬actor.Closed session_id) :
    Accounted (actor.sendReadyIfNeeded session_id) := by
  unfold sendReadyIfNeeded
  cases sent : actor.readyEventsSent session_id with
  | true => exact accounted
  | false =>
    dsimp only
    rw [if_neg Bool.false_ne_true]
    cases listening : actor.listening with
    | false =>
      rw [send_deaf listening]
      refine ⟨accounted.active,accounted.announced,?_,accounted.disconnectedClosed,accounted.closedTold⟩
      intro other member
      exact (accounted.readyNoted other member).imp_right (mark_set _ session_id)
    | true =>
      have live := unclosed listening sent
      rw [send_listening listening]
      refine ⟨accounted.active,?_,?_,?_,?_⟩
      · apply pairwise_snoc accounted.announced
        intro before member other
        constructor
        · intro same later
          cases later
          rw [same] at member
          rcases accounted.readyNoted session_id member with closed | marked
          · exact live closed
          · rw [sent] at marked
            cases marked
        · intro gone
          refine ⟨rfl,?_⟩
          intro later
          cases later
          exact live (accounted.disconnectedClosed session_id before member gone)
      · intro other member
        rcases List.mem_append.mp member with old | new
        · exact (accounted.readyNoted other old).imp_right (mark_set _ session_id)
        · cases List.mem_singleton.mp new
          exact .inr (mark_same _ _ _)
      · intro other before member gone
        rcases List.mem_append.mp member with old | new
        · exact accounted.disconnectedClosed other before old gone
        · rw [List.mem_singleton.mp new] at gone
          cases gone
      · intro heard other closed
        obtain ⟨event,member,gone⟩ := accounted.closedTold heard other closed
        exact ⟨event,List.mem_append_left _ member,gone⟩

theorem live_slot (live : actor.isLiveSession session_id = true) :
    ∃ session, actor.sessions[session_id]? = some (some session) := by
  unfold isLiveSession at live
  split at live
  · rename_i session slot; exact ⟨session,slot⟩
  · cases live

theorem live_not_closed (live : actor.isLiveSession session_id = true) : ¬actor.Closed session_id := by
  obtain ⟨session,slot⟩ := live_slot live
  intro closed
  unfold Closed at closed
  rw [slot] at closed
  cases closed

theorem taken_closed (live : actor.isLiveSession session_id = true) (other : SessionId) :
    (actor.takeSession session_id).Closed other ↔ other = session_id ∨ actor.Closed other := by
  obtain ⟨session,slot⟩ := live_slot live
  have inside : session_id < actor.sessions.length := (List.getElem?_eq_some_iff.mp slot).1
  unfold Closed takeSession
  dsimp only
  by_cases same : other = session_id
  · rw [same,List.getElem?_set_self inside]
    exact ⟨fun _ => .inl rfl,fun _ => rfl⟩
  · rw [List.getElem?_set_ne (Ne.symm same)]
    exact ⟨.inr,fun either => either.resolve_left same⟩

theorem taken_active (accounted : Accounted actor) (live : actor.isLiveSession session_id = true) :
    (actor.takeSession session_id).activeSessions = (actor.takeSession session_id).sessions.countP Option.isSome := by
  obtain ⟨session,slot⟩ := live_slot live
  obtain ⟨inside,value⟩ := List.getElem?_eq_some_iff.mp slot
  have occupied : 0 < actor.sessions.countP Option.isSome :=
    List.countP_pos_iff.mpr ⟨some session,value ▸ List.getElem_mem inside,rfl⟩
  unfold takeSession
  dsimp only
  rw [List.countP_set inside,value,accounted.active]
  rfl

theorem taken_ready (live : actor.isLiveSession session_id = true)
    (noted : actor.Closed other ∨ actor.readyEventsSent other = true) :
    (actor.takeSession session_id).Closed other ∨ (actor.takeSession session_id).readyEventsSent other = true := by
  by_cases same : other = session_id
  · exact .inl ((taken_closed live other).mpr (.inl same))
  · rcases noted with closed | marked
    · exact .inl ((taken_closed live other).mpr (.inr closed))
    · right
      unfold takeSession markSession
      dsimp only
      rw [if_neg same]
      exact marked

theorem close_accounted (accounted : Accounted actor) (session_id : SessionId) (reason : String) :
    Accounted (actor.closeSession session_id (some reason)) := by
  unfold closeSession
  cases live : actor.isLiveSession session_id with
  | false => exact accounted
  | true =>
    dsimp only
    rw [if_pos rfl]
    have active := taken_active accounted live
    have gone_before : ∀ before ∈ actor.events, before.disconnects session_id = false := by
      intro before member
      cases gone : before.disconnects session_id with
      | false => rfl
      | true => exact absurd (accounted.disconnectedClosed session_id before member gone) (live_not_closed live)
    cases listening : actor.listening with
    | false =>
      rw [send_deaf (show (actor.takeSession session_id).listening = false from listening)]
      refine ⟨active,accounted.announced,?_,?_,?_⟩
      · intro other member
        exact taken_ready live (accounted.readyNoted other member)
      · intro other before member gone
        exact (taken_closed live other).mpr (.inr (accounted.disconnectedClosed other before member gone))
      · intro heard
        exact absurd (listening.symm.trans heard) Bool.false_ne_true
    | true =>
      rw [send_listening (show (actor.takeSession session_id).listening = true from listening)]
      refine ⟨active,?_,?_,?_,?_⟩
      · apply pairwise_snoc accounted.announced
        intro before member other
        refine ⟨fun _ => nofun,fun gone => ⟨?_,nofun⟩⟩
        change (session_id == other) = false
        apply beq_eq_false_iff_ne.mpr
        intro same
        rw [← same,gone_before before member] at gone
        cases gone
      · intro other member
        rcases List.mem_append.mp member with old | new
        · exact taken_ready live (accounted.readyNoted other old)
        · cases List.mem_singleton.mp new
      · intro other before member gone
        rcases List.mem_append.mp member with old | new
        · exact (taken_closed live other).mpr (.inr (accounted.disconnectedClosed other before old gone))
        · rw [List.mem_singleton.mp new] at gone
          exact (taken_closed live other).mpr (.inl (beq_iff_eq.mp gone).symm)
      · intro heard other closed
        rcases (taken_closed live other).mp closed with same | before
        · exact ⟨_,List.mem_append_right _ List.mem_cons_self,beq_iff_eq.mpr same.symm⟩
        · obtain ⟨event,member,gone⟩ := accounted.closedTold listening other before
          exact ⟨event,List.mem_append_left _ member,gone⟩

theorem push_accounted (accounted : Accounted actor) (session : GridSession) :
    Accounted (actor.pushSession session) := by
  have closed : ∀ other, (actor.pushSession session).Closed other ↔ actor.Closed other := by
    intro other
    change (actor.sessions ++ [some session])[other]? = some none ↔ _
    rw [List.getElem?_append]
    split
    · exact Iff.rfl
    · rename_i outside
      have absent : actor.sessions[other]? = none := List.getElem?_eq_none (Nat.le_of_not_lt outside)
      unfold Closed
      rw [absent]
      constructor
      · intro single
        have member := List.mem_of_getElem? single
        cases List.mem_singleton.mp member
      · intro none_some
        cases none_some
  refine ⟨?_,accounted.announced,?_,?_,?_⟩
  · change actor.activeSessions + 1 = (actor.sessions ++ [some session]).countP Option.isSome
    rw [List.countP_append,accounted.active]
    rfl
  · intro other member
    exact (accounted.readyNoted other member).imp_left (closed other).mpr
  · intro other before member gone
    exact (closed other).mpr (accounted.disconnectedClosed other before member gone)
  · intro heard other empty
    exact accounted.closedTold heard other ((closed other).mp empty)

theorem disconnectAll_accounted (accounted : Accounted actor) : Accounted actor.handleDisconnectAll := by
  unfold handleDisconnectAll
  generalize actor.liveSessions = live_sessions
  induction live_sessions generalizing actor with
  | nil => exact accounted
  | cons session_id live_sessions ih => exact ih (close_accounted accounted session_id "disconnect_all")

theorem dispatched_neutral (schema : NetworkSchema) (session_id : SessionId) (channel : UInt8) (data : Bytes) :
    ∀ event ∈ dispatchedEvents schema session_id channel data, Neutral event := by
  obtain ⟨dispatched,ran⟩ := dispatch_ends schema session_id channel data
  have same : dispatchedEvents schema session_id channel data = dispatched.events := by
    unfold dispatchedEvents
    rw [ran]
    rfl
  rw [same]
  obtain ⟨⟨final,stop⟩,ended,kept⟩ := Option.map_eq_some_iff.mp ran
  cases kept
  refine loop_keeps (fun dispatched => ∀ event ∈ dispatched.events, Neutral event) ?_ (List.forall_mem_nil _) ended
  intro state bytes next left neutral stepped
  obtain ⟨parsed,rest,_,pushed⟩ := Reader.bind_eq_ok.mp stepped
  unfold dispatchEnvelope at pushed
  split at pushed
  · cases pushed
    intro event member
    rcases List.mem_append.mp member with old | new
    · exact neutral event old
    · obtain ⟨type_index,_,rfl⟩ := Option.map_eq_some_iff.mp (Option.mem_toList.mp new)
      exact fun _ => ⟨nofun,rfl⟩
  · cases pushed
    exact neutral
  · cases pushed

-- The one input that lets a session come back: its carrier reports a connection
-- after the slot was emptied.
def ConnectedAfterClose (actor : SessionServiceActor GridSession) : SessionServiceInput GridSession → Prop
  | .carrier session_id (.connected _) =>
    actor.running = true ∧ actor.listening = true ∧ actor.Closed session_id ∧ actor.readyEventsSent session_id = false
  | _ => False

theorem receive_accounted (accounted : Accounted actor) (live : actor.isLiveSession session_id = true) :
    Accounted (actor.receiveMessage schema session_id channel data) := by
  have ready := ready_accounted accounted fun _ _ => live_not_closed live
  unfold receiveMessage
  dsimp only
  split
  · have received : Accounted ((actor.sendReadyIfNeeded session_id).send (.received session_id channel data)) :=
      send_neutral ready fun _ => ⟨nofun,rfl⟩
    split
    · exact received
    · split
      · exact sends_neutral _ received (dispatched_neutral schema session_id channel data)
      · exact received
  · exact ready

theorem step_accounted (schema : NetworkSchema) (accounted : Accounted actor)
    (admissible : ¬actor.ConnectedAfterClose input) : Accounted (actor.step schema input) := by
  cases input with
  | hangUp =>
    exact ⟨accounted.active,accounted.announced,accounted.readyNoted,accounted.disconnectedClosed,fun heard => nomatch heard⟩
  | message msg =>
    unfold step
    dsimp only
    split
    · cases msg with
      | createSession joined =>
        cases joined with
        | session session => exact push_accounted accounted session
        | failed error => exact accounted
        | carrierMissing => exact accounted
        | receiverUnavailable => exact accounted
      | sendMessage session_id data channel reliability priority accepted =>
        unfold handleMessage handleSendMessage
        dsimp only
        split
        · cases accepted with
          | error error => exact accounted
          | ok sent => exact send_neutral accounted fun _ => ⟨nofun,rfl⟩
        · exact accounted
      | getNumSessions => exact accounted
      | disconnectAll => exact disconnectAll_accounted accounted
      | shutdown =>
        have closed := disconnectAll_accounted accounted
        exact ⟨closed.active,closed.announced,closed.readyNoted,closed.disconnectedClosed,closed.closedTold⟩
    · exact accounted
  | carrier session_id event =>
    unfold step
    dsimp only
    split
    · rename_i running
      cases event with
      | connected version =>
        apply ready_accounted accounted
        intro listening unsent closed
        exact admissible ⟨running,listening,closed,unsent⟩
      | disconnected reason => exact close_accounted accounted session_id reason.debug
      | error description => exact send_neutral accounted fun _ => ⟨nofun,rfl⟩
      | messageReceived channel data =>
        unfold handleCarrierEvent
        dsimp only
        split
        · rename_i live; exact receive_accounted accounted live
        · exact accounted
    · exact accounted

theorem connected_breaks (schema : NetworkSchema) (accounted : Accounted actor)
    (late : actor.ConnectedAfterClose input) : ¬Lifecycle (actor.step schema input) := by
  cases input with
  | hangUp => cases late
  | message msg => cases late
  | carrier session_id event =>
    cases event with
    | disconnected reason => cases late
    | error description => cases late
    | messageReceived channel data => cases late
    | connected version =>
      obtain ⟨running,listening,closed,unsent⟩ := late
      obtain ⟨event,member,gone⟩ := accounted.closedTold listening session_id closed
      have events : (actor.step schema (.carrier session_id (.connected version))).events =
          actor.events ++ [.ready session_id] := by
        unfold step
        dsimp only
        rw [if_pos running]
        unfold handleCarrierEvent sendReadyIfNeeded
        dsimp only
        rw [if_neg (by rw [unsent]; exact Bool.false_ne_true),send_listening listening]
      intro lifecycle
      have order := lifecycle.readyFirst session_id
      rw [events,List.pairwise_append] at order
      exact order.2.2 event member (.ready session_id) List.mem_cons_self gone rfl

-- The slots, the counter and the announcements agree throughout exactly in the
-- runs in which no session is connected after it was closed.
theorem session_lifecycle (schema : NetworkSchema) (inputs : List (SessionServiceInput GridSession)) :
    (∀ actor, Reached (step schema) new inputs actor → Lifecycle actor) ↔
      EachAction (step schema) new inputs fun actor input => ¬actor.ConnectedAfterClose input := by
  apply reached_iff
  · intro actor input accounted admissible
    exact step_accounted schema accounted admissible
  · intro actor accounted
    exact accounted_sound accounted
  · intro actor input accounted late
    exact connected_breaks schema accounted (not_not.mp late)
  · exact new_accounted

def lateConnection : List (SessionServiceInput Unit) :=
  [.message (.createSession (.session ())),.message .disconnectAll,.carrier 0 (.connected 1)]

-- A connection that was still queued when all sessions were disconnected.
theorem ready_after_disconnected :
    ¬∀ (schema : NetworkSchema) (inputs : List (SessionServiceInput Unit)) (actor : SessionServiceActor Unit),
      Reached (step schema) new inputs actor → Lifecycle actor := by
  intro sound
  have lifecycle := sound ⟨fun _ => none,fun _ => none⟩ lateConnection _ ⟨lateConnection,[],rfl,rfl⟩
  have order := lifecycle.readyFirst 0
  have events : (lateConnection.foldl (step ⟨fun _ => none,fun _ => none⟩) new).events =
      [.disconnected 0 "disconnect_all",.ready 0] := by decide
  rw [events] at order
  exact (List.pairwise_cons.mp order).1 (.ready 0) List.mem_cons_self rfl rfl

end SessionServiceActor
end NwNetwork.Gridmate
