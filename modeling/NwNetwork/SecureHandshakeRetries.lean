import NwNetwork.SecureHandshake

namespace NwNetwork.Gridmate
open WireReader Serialize Carrier

namespace SecureConnection
variable {connection after : SecureConnection}

-- A tenth of the handshake's timeout of five seconds.
def retryInterval : Nat := milliseconds (5000 / 10)

-- Nothing about the retries changes.
structure Quiet (connection after : SecureConnection) : Prop where
  timers : SameTimers connection.machine after.machine
  forced : after.forced = connection.forced

theorem Quiet.refl (connection : SecureConnection) : Quiet connection connection := ⟨.refl _,rfl⟩

theorem Quiet.trans (first : Quiet before middle) (second : Quiet middle final) : Quiet before final :=
  ⟨first.timers.trans second.timers,second.forced.trans first.forced⟩

theorem transition_timers (machine : StateMachine) (state : StateMachineState) :
    SameTimers machine (machine.transition state) := ⟨rfl,rfl,rfl⟩

theorem flush_quiet (answer : SslAnswer) (connection : SecureConnection) :
    Quiet connection (flushEncryptedData answer connection).2 := by
  obtain ⟨result,sent,same⟩ := flush_cases answer connection
  rw [same]
  exact ⟨.refl _,rfl⟩

theorem connect_quiet (answer : SslAnswer) (connection : SecureConnection) :
    Quiet connection (sslConnect answer connection).2 := by
  unfold sslConnect handleSslError
  dsimp only
  split
  · have flushed := flush_quiet answer {connection with
      ssl.connects := connection.ssl.connects ++ [answer.ret]
      machine := connection.machine.transition .established }
    exact ⟨(transition_timers _ _).trans flushed.timers,flushed.forced⟩
  · cases wants answer.err with
    | true =>
      have flushed := flush_quiet answer {connection with ssl.connects := connection.ssl.connects ++ [answer.ret]}
      exact ⟨flushed.timers,flushed.forced⟩
    | false => exact ⟨transition_timers _ _,rfl⟩

theorem recreate_quiet (created : Created) (answer : SslAnswer) (now : Nat) (connection : SecureConnection) :
    Quiet connection (handleStateResultDirect created answer now connection .recreateSsl).2 := by
  unfold handleStateResultDirect createSsl
  cases created with
  | newFailed err => exact .refl _
  | bioFailed err => exact .refl _
  | session =>
    have connected := connect_quiet answer {connection with ssl := ⟨[],[]⟩}
    exact ⟨connected.timers,connected.forced⟩

theorem feed_quiet (packet : Bytes) (written : Int) (now : Nat) (answer : SslAnswer) (standing : Standing connection) :
    Quiet connection (feed packet written now answer connection).2 := by
  unfold feed
  split
  · exact .refl _
  · have fed : Standing {connection with
        ssl.fed := connection.ssl.fed ++ [packet], given := connection.given ++ [packet] } :=
      standing_same standing rfl rfl
    dsimp only
    rcases fed with opening | complete
    · rw [incoming_opening opening]
      have connected := connect_quiet answer {connection with
        ssl.fed := connection.ssl.fed ++ [packet], given := connection.given ++ [packet] }
      exact ⟨connected.timers,connected.forced⟩
    · rw [incoming_complete complete]
      exact ⟨.refl _,rfl⟩

-- The forced timeouts up to a clock reading, and when the next is due.
structure Paced (created clock : Nat) (connection : SecureConnection) : Prop where
  creationTime : connection.machine.creationTime = created
  timeoutMs : connection.machine.timeoutMs = 5000
  elapsed : created + retryInterval*connection.forced.length ≤ clock
  due : created + retryInterval*(connection.forced.length + 1) ≤ connection.machine.nextHandshakeRetry
  last : ∀ time ∈ connection.forced, time ≤ clock ∧ time + retryInterval ≤ connection.machine.nextHandshakeRetry
  apart : connection.forced.Pairwise fun earlier later => earlier + retryInterval ≤ later

theorem paced_quiet (paced : Paced created clock connection) (quiet : Quiet connection after) (later : clock ≤ now) :
    Paced created now after := by
  refine ⟨quiet.timers.creationTime.trans paced.creationTime,quiet.timers.timeoutMs.trans paced.timeoutMs,?_,?_,?_,?_⟩
  · rw [quiet.forced]
    exact Nat.le_trans paced.elapsed later
  · rw [quiet.forced,quiet.timers.nextHandshakeRetry]
    exact paced.due
  · rw [quiet.forced,quiet.timers.nextHandshakeRetry]
    intro time present
    exact ⟨Nat.le_trans (paced.last time present).1 later,(paced.last time present).2⟩
  · rw [quiet.forced]
    exact paced.apart

-- What setting the timer does, without computing it.
theorem retry_timers (machine : StateMachine) (now : Nat) (configured : machine.timeoutMs = 5000) :
    (machine.updateRetryTimer now).creationTime = machine.creationTime ∧ (machine.updateRetryTimer now).timeoutMs = 5000 ∧
      (machine.updateRetryTimer now).nextHandshakeRetry = now + retryInterval := by
  cases machine
  dsimp only at configured
  subst configured
  simp only [StateMachine.updateRetryTimer,retryInterval,and_self]

-- The timer starts anew with a state.
theorem paced_enters (paced : Paced created clock connection) (inTime : clock ≤ now) :
    Paced created now {connection with machine := connection.machine.updateRetryTimer now} := by
  obtain ⟨creation,timeout,next⟩ := retry_timers connection.machine now paced.timeoutMs
  refine ⟨creation.trans paced.creationTime,timeout,Nat.le_trans paced.elapsed inTime,?_,?_,paced.apart⟩
  · change _ ≤ (connection.machine.updateRetryTimer now).nextHandshakeRetry
    rw [next,Nat.mul_add,Nat.mul_one,← Nat.add_assoc]
    exact Nat.add_le_add_right (Nat.le_trans paced.elapsed inTime) _
  · intro time present
    have before := (paced.last time present).1
    refine ⟨Nat.le_trans before inTime,?_⟩
    change _ ≤ (connection.machine.updateRetryTimer now).nextHandshakeRetry
    rw [next]
    exact Nat.add_le_add_right (Nat.le_trans before inTime) _

-- A forced timeout comes when it is due, and the next is due an interval later.
theorem paced_forces (paced : Paced created clock connection) (ready : connection.machine.nextHandshakeRetry ≤ now)
    (inTime : now ≤ later) : Paced created later {connection with
      machine := connection.machine.updateRetryTimer later, forced := connection.forced ++ [now] } := by
  obtain ⟨creation,timeout,next⟩ := retry_timers connection.machine later paced.timeoutMs
  have size : (connection.forced ++ [now]).length = connection.forced.length + 1 := List.length_append
  have reached := Nat.le_trans paced.due (Nat.le_trans ready inTime)
  refine ⟨creation.trans paced.creationTime,timeout,?_,?_,?_,?_⟩
  · change created + retryInterval*(connection.forced ++ [now]).length ≤ later
    rw [size]
    exact reached
  · change created + retryInterval*((connection.forced ++ [now]).length + 1) ≤
      (connection.machine.updateRetryTimer later).nextHandshakeRetry
    rw [size,next,Nat.mul_add _ _ 1,Nat.mul_one,← Nat.add_assoc]
    exact Nat.add_le_add_right reached _
  · intro time present
    change time ≤ later ∧ time + retryInterval ≤ (connection.machine.updateRetryTimer later).nextHandshakeRetry
    rw [next]
    have before : time ≤ later := by
      rcases List.mem_append.mp present with old | new
      · have due := (paced.last time old).2
        exact Nat.le_trans (Nat.le_trans (Nat.le_add_right _ _) due) (Nat.le_trans ready inTime)
      · rw [List.mem_singleton.mp new]
        exact inTime
    exact ⟨before,Nat.add_le_add_right before _⟩
  · change (connection.forced ++ [now]).Pairwise _
    rw [List.pairwise_append]
    refine ⟨paced.apart,List.pairwise_singleton _ _,?_⟩
    intro earlier old newest new
    rw [List.mem_singleton.mp new]
    exact Nat.le_trans (paced.last earlier old).2 ready

-- The clock never goes back: not between the readings of one round, and not from
-- one round to the next.
def InTime (clock : Nat) : List (Nat × HandshakeEvent) → Prop
  | [] => True
  | (checkedAt,.received _ _ now _ _ _) :: rest => clock ≤ checkedAt ∧ checkedAt ≤ now ∧ InTime now rest
  | (checkedAt,.timer now later _) :: rest => clock ≤ checkedAt ∧ checkedAt ≤ now ∧ now ≤ later ∧ InTime later rest
  | (checkedAt,.recvFailed _) :: rest => clock ≤ checkedAt ∧ InTime checkedAt rest

theorem timer_paced (paced : Paced created clock connection) (opening : Opening connection) (inTime : clock ≤ now)
    (after : now ≤ later) (answer : SslAnswer) :
    Paced created later (connection.handle (.timer now later answer)).2 ∧
      (connection.handle (.timer now later answer)).2.forced.length ≤ connection.forced.length + 1 := by
  have updated : connection.machine.dispatch now later .update = connection.machine.retry now later := by
    unfold StateMachine.dispatch
    rcases opening.stands with stands | stands
    · rw [stands]
      simp only [StateMachine.onStateCookieExchange]
    · rw [stands]
      simp only [StateMachine.onStateConnect]
  unfold handle
  dsimp only
  rw [updated]
  unfold StateMachine.retry
  split
  · rename_i ready
    have forced := paced_forces paced (of_decide_eq_true ready) after
    generalize connection.machine.updateRetryTimer later = machine at forced ⊢
    have quiet := flush_quiet answer {connection with machine := machine,forced := connection.forced ++ [now]}
    refine ⟨paced_quiet forced quiet (Nat.le_refl _),?_⟩
    change (flushEncryptedData answer _).2.forced.length ≤ _
    rw [quiet.forced]
    exact Nat.le_of_eq List.length_append
  · exact ⟨paced_quiet paced (.refl _) (Nat.le_trans inTime after),Nat.le_succ _⟩

-- A new state starts the timer anew; a new SSL object leaves it.
theorem special_paced {machine : StateMachine} {result : StateResult} (paced : Paced created clock connection) (opening : Opening connection) (inTime : clock ≤ now)
    (fresh : Created) (answer : SslAnswer)
    (asked : result = .transition ∧ machine = connection.machine.transition .connect ∨
      result = .recreateSsl ∧ machine = connection.machine) :
    Paced created now (handleStateResult fresh answer now {connection with machine := machine} result).2 ∧
      (handleStateResult fresh answer now {connection with machine := machine} result).2.forced = connection.forced := by
  rcases asked with ⟨rfl,rfl⟩ | ⟨rfl,rfl⟩
  · have moved : Opening {connection with machine := connection.machine.transition .connect} := ⟨.inr rfl,opening.connects⟩
    have still : Paced created clock {connection with machine := connection.machine.transition .connect} :=
      paced_quiet paced ⟨transition_timers _ _,rfl⟩ (Nat.le_refl _)
    have entered := paced_enters still inTime
    unfold handleStateResult
    dsimp only
    rw [enter_opening moved]
    dsimp only at entered ⊢
    generalize (connection.machine.transition .connect).updateRetryTimer now = machine at entered ⊢
    have quiet := connect_quiet answer {connection with machine := machine}
    exact ⟨paced_quiet entered quiet (Nat.le_refl _),quiet.forced⟩
  · have quiet := recreate_quiet fresh answer now connection
    exact ⟨paced_quiet paced quiet inTime,quiet.forced⟩

theorem received_paced (paced : Paced created clock connection) (opening : Opening connection) (inTime : clock ≤ now)
    (packet : Bytes) (written : Int) (fresh : Created) (special incoming : SslAnswer) :
    Paced created now (connection.handle (.received packet written now fresh special incoming)).2 ∧
      (connection.handle (.received packet written now fresh special incoming)).2.forced = connection.forced := by
  have heard : Opening {connection with received := connection.received ++ [packet]} := ⟨opening.stands,opening.connects⟩
  have kept : Paced created clock {connection with received := connection.received ++ [packet]} :=
    paced_quiet paced ⟨.refl _,rfl⟩ (Nat.le_refl _)
  unfold handle
  dsimp only
  rcases classify_cases packet now heard with ⟨result,machine,moved,asked,same⟩ | same
  · rw [same]
    dsimp only
    have steps := result_steps fresh special now moved result
    obtain ⟨reached,unforced⟩ := special_paced kept heard inTime fresh special asked
    split
    · rename_i err failed ended
      rw [ended] at reached unforced
      exact ⟨reached,unforced⟩
    · rename_i done ended
      rw [ended] at steps reached unforced
      split
      · have fed := feed_quiet packet written now incoming (steps.standing rfl)
        exact ⟨paced_quiet reached fed (Nat.le_refl _),fed.forced.trans unforced⟩
      · exact ⟨reached,unforced⟩
  · rw [same]
    dsimp only
    split
    · have fed := feed_quiet packet written now incoming (.inl heard)
      exact ⟨paced_quiet kept fed inTime,fed.forced⟩
    · exact ⟨paced_quiet kept (.refl _) inTime,rfl⟩

def Bounded (connection : SecureConnection) : Prop :=
  connection.forced.length ≤ 11 ∧ connection.forced.Pairwise fun earlier later => earlier + retryInterval ≤ later

-- Before the timeout is noticed ten intervals have gone by at most.
theorem forced_before (paced : Paced created clock connection) (inTime : clock ≤ checkedAt)
    (soon : connection.machine.checkTimeout checkedAt = false) : connection.forced.length ≤ 10 := by
  have elapsed := Nat.le_trans paced.elapsed inTime
  unfold StateMachine.checkTimeout at soon
  rw [paced.creationTime,paced.timeoutMs] at soon
  have early := of_decide_eq_false soon
  unfold retryInterval milliseconds at elapsed
  omega

theorem handle_bounded (opening : Opening connection) (paced : Paced created clock connection)
    (soon : connection.machine.checkTimeout checkedAt = false) (inTime : InTime clock ((checkedAt,event) :: rest)) :
    Bounded (connection.handle event).2 ∧ ∃ reading, Paced created reading (connection.handle event).2 ∧ InTime reading rest := by
  cases event with
  | recvFailed err =>
    obtain ⟨checked,others⟩ := inTime
    have few := forced_before paced checked soon
    exact ⟨⟨Nat.le_succ_of_le few,paced.apart⟩,checkedAt,paced_quiet paced (.refl _) checked,others⟩
  | timer now later answer =>
    obtain ⟨checked,before,after,others⟩ := inTime
    have few := forced_before paced checked soon
    obtain ⟨reached,more⟩ := timer_paced paced opening (Nat.le_trans checked before) after answer
    exact ⟨⟨Nat.le_trans more (Nat.succ_le_succ few),reached.apart⟩,later,reached,others⟩
  | received packet written now fresh special incoming =>
    obtain ⟨checked,before,others⟩ := inTime
    have few := forced_before paced checked soon
    obtain ⟨reached,same⟩ := received_paced paced opening (Nat.le_trans checked before) packet written fresh special incoming
    refine ⟨⟨?_,reached.apart⟩,now,reached,others⟩
    rw [same]
    exact Nat.le_succ_of_le few

theorem turn_cases (underway : Underway connection) (checkedAt : Nat) (event : HandshakeEvent) :
    (∃ result, connection.turn checkedAt event = (some result,connection)) ∨
      Opening connection ∧ connection.machine.checkTimeout checkedAt = false ∧
        (connection.turn checkedAt event).2 = (connection.handle event).2 := by
  unfold turn
  split
  · exact .inl ⟨_,rfl⟩
  · rename_i unfinished
    have opening : Opening connection := underway.standing.resolve_right fun complete => unfinished complete.stands
    split
    · exact .inl ⟨_,rfl⟩
    · cases late : connection.machine.checkTimeout checkedAt with
      | true => exact .inl ⟨_,rfl⟩
      | false =>
        refine .inr ⟨opening,rfl,?_⟩
        rw [if_neg Bool.false_ne_true]
        split <;> rename_i ended <;> rw [ended]

theorem turns_bounded (underway : Underway connection) (paced : Paced created clock connection) (bounded : Bounded connection)
    (inTime : InTime clock turns) : Bounded (connection.processTurns turns).2 := by
  induction turns generalizing connection clock with
  | nil => exact bounded
  | cons first rest ih =>
    obtain ⟨checkedAt,event⟩ := first
    have concludes := turn_concludes underway checkedAt event
    unfold processTurns
    rcases turn_cases underway checkedAt event with ⟨result,stays⟩ | ⟨opening,soon,goes⟩
    · rw [stays]
      exact bounded
    · obtain ⟨few,reading,reached,others⟩ := handle_bounded opening paced soon inTime
      rw [← goes] at few reached
      split
      · rename_i result after ended
        rw [ended] at few
        exact few
      · rename_i after ended
        rw [ended] at concludes few reached
        exact ih (concludes.underway (.inl rfl)) reached few others

theorem new_paced (created : Nat) : Paced created created (new created) := by
  have due : (new created).machine.nextHandshakeRetry = created + retryInterval := by
    simp only [new,StateMachine.newClient,retryInterval]
  refine ⟨rfl,rfl,Nat.le_refl _,?_,nofun,List.Pairwise.nil⟩
  rw [due]
  exact Nat.le_of_eq (congrArg (created + ·) (Nat.mul_one _))

theorem start_paced (started : created ≤ now) (answer : SslAnswer) :
    Paced created now (start created now answer).2 ∧ (start created now answer).2.forced = [] := by
  have entered := paced_enters (new_paced created) started
  unfold start
  dsimp only
  rw [enter_opening (new_opening created)]
  dsimp only
  generalize (new created).machine.updateRetryTimer now = machine at entered ⊢
  have quiet := connect_quiet answer {new created with machine := machine}
  exact ⟨paced_quiet entered quiet (Nat.le_refl _),quiet.forced⟩

-- Ten retries were meant; the check comes before the wait, so that an eleventh is
-- possible and no more, and two retries are never closer than a tenth of the timeout.
theorem handshake_retries_bounded (created now : Nat) (answer : SslAnswer) (turns : List (Nat × HandshakeEvent))
    (started : created ≤ now) (inTime : InTime now turns) :
    (processConnection created now answer turns).2.forced.length ≤ 11 ∧
      (processConnection created now answer turns).2.forced.Pairwise fun earlier later => earlier + retryInterval ≤ later := by
  have first := start_paced started answer
  have begun := start_handles created now answer
  unfold processConnection
  split
  · rename_i err failed ended
    rw [ended] at first
    rw [first.2]
    exact ⟨Nat.zero_le _,List.Pairwise.nil⟩
  · rename_i connection ended
    rw [ended] at first begun
    have empty : Bounded connection := by
      unfold Bounded
      rw [first.2]
      exact ⟨Nat.zero_le _,List.Pairwise.nil⟩
    exact turns_bounded (begun.underway rfl) first.1 empty inTime

def silentAnswer : SslAnswer := ⟨-1,2,0,[],none⟩

-- Nothing ever comes from the server, and the timer wakes the loop when a retry is
-- due.
theorem handshake_retries_bounded_silence :
    (processConnection 0 0 silentAnswer [(0,.timer 500000000 500000000 silentAnswer),
      (500000000,.timer 1000000000 1000000001 silentAnswer)]).2.forced.length = 2 ∧
    (processConnection 0 0 silentAnswer [(0,.timer 500000000 500000000 silentAnswer),
      (500000000,.timer 1000000000 1000000001 silentAnswer)]).2.forced.length ≤ 11 := by
  have inTime : InTime 0 [(0,.timer 500000000 500000000 silentAnswer),
      (500000000,.timer 1000000000 1000000001 silentAnswer)] := by simp [InTime]
  exact ⟨by decide +kernel,(handshake_retries_bounded 0 0 silentAnswer _ (Nat.le_refl 0) inTime).1⟩

end SecureConnection
end NwNetwork.Gridmate
