import NwNetwork.SecureConnection

namespace NwNetwork.Gridmate
open WireReader Serialize Carrier

-- What the handshake's own steps never change of a state machine.
structure SameTimers (before after : StateMachine) : Prop where
  creationTime : after.creationTime = before.creationTime
  timeoutMs : after.timeoutMs = before.timeoutMs
  nextHandshakeRetry : after.nextHandshakeRetry = before.nextHandshakeRetry

theorem SameTimers.refl (machine : StateMachine) : SameTimers machine machine := ⟨rfl,rfl,rfl⟩

theorem SameTimers.trans (first : SameTimers start middle) (second : SameTimers middle final) : SameTimers start final :=
  ⟨second.creationTime.trans first.creationTime,second.timeoutMs.trans first.timeoutMs,
    second.nextHandshakeRetry.trans first.nextHandshakeRetry⟩

namespace SecureConnection
variable {connection after : SecureConnection}

-- Still in the handshake, with an SSL object whose handshake is not complete.
structure Opening (connection : SecureConnection) : Prop where
  stands : connection.machine.currentState = .cookieExchange ∨ connection.machine.currentState = .connect
  connects : 1 ∉ connection.ssl.connects

-- SSL_connect has returned 1 on the present SSL object, and has not been called
-- since.
structure Complete (connection : SecureConnection) : Prop where
  stands : connection.machine.currentState = .established
  connects : ∃ failed, connection.ssl.connects = failed ++ [1] ∧ 1 ∉ failed

def Standing (connection : SecureConnection) : Prop := Opening connection ∨ Complete connection

-- Disconnected is left to the error that led to it.
def Closes (result : Except DriverError Unit) (connection : SecureConnection) : Prop :=
  connection.machine.currentState = .disconnected → ∃ answer : SslAnswer, wants answer.err = false ∧
    result = .error (.ssl ("SSL error " ++ toString answer.err ++ " (code: 0x" ++ hex answer.code ++ ")"))

-- What one of the handshake's steps may do: it goes on with a connection that
-- stands, or fails. Datagrams are another matter.
structure Steps (connection : SecureConnection) (result : Except DriverError Unit) (after : SecureConnection) : Prop where
  standing : result = .ok () → Standing after
  closes : Closes result after
  received : after.received = connection.received
  given : after.given = connection.given
  fed : after.ssl.fed = connection.ssl.fed ∨ after.ssl.fed = []

theorem standing_open (standing : Standing connection) : connection.machine.currentState ≠ .disconnected := by
  rcases standing with ⟨stands | stands,_⟩ | ⟨stands,_⟩ <;> rw [stands] <;> nofun

theorem steps_still (standing : Standing connection) : Steps connection (.ok ()) connection :=
  ⟨fun _ => standing,fun stands => absurd stands (standing_open standing),rfl,rfl,.inl rfl⟩

theorem flush_cases (answer : SslAnswer) (connection : SecureConnection) :
    ∃ result sent, flushEncryptedData answer connection = (result,{connection with sent := sent}) := by
  unfold flushEncryptedData
  split
  · exact ⟨_,connection.sent,rfl⟩
  · split
    · exact ⟨_,connection.sent,rfl⟩
    · exact ⟨_,_,rfl⟩

-- Only the state machine's state and the SSL object count.
theorem standing_same (standing : Standing connection)
    (state : after.machine.currentState = connection.machine.currentState) (ssl : after.ssl.connects = connection.ssl.connects) :
    Standing after := by
  rcases standing with ⟨stands,connects⟩ | ⟨stands,connects⟩
  · exact .inl ⟨by rw [state]; exact stands,by rw [ssl]; exact connects⟩
  · exact .inr ⟨state.trans stands,by rw [ssl]; exact connects⟩

theorem flush_steps (answer : SslAnswer) (standing : Standing connection) :
    Steps connection (flushEncryptedData answer connection).1 (flushEncryptedData answer connection).2 := by
  obtain ⟨result,sent,flushed⟩ := flush_cases answer connection
  rw [flushed]
  have still : Standing {connection with sent := sent} := standing_same standing rfl rfl
  exact ⟨fun _ => still,fun stands => absurd stands (standing_open still),rfl,rfl,.inl rfl⟩

theorem connect_steps (answer : SslAnswer) (opening : Opening connection) :
    Steps connection (sslConnect answer connection).1 (sslConnect answer connection).2 := by
  unfold sslConnect
  by_cases done : answer.ret = 1
  · dsimp only
    rw [if_pos done]
    have complete : Complete {connection with
        ssl.connects := connection.ssl.connects ++ [answer.ret]
        machine := connection.machine.transition .established } := ⟨rfl,_,congrArg (_ ++ [·]) done,opening.connects⟩
    have flushed := flush_steps answer (.inr complete)
    exact ⟨flushed.standing,flushed.closes,flushed.received,flushed.given,flushed.fed⟩
  · dsimp only
    rw [if_neg done]
    unfold handleSslError
    cases again : wants answer.err with
    | true =>
      have still : Opening {connection with ssl.connects := connection.ssl.connects ++ [answer.ret]} := by
        refine ⟨opening.stands,?_⟩
        intro present
        rcases List.mem_append.mp present with before | last
        · exact opening.connects before
        · exact done (List.mem_singleton.mp last).symm
      have flushed := flush_steps answer (.inl still)
      exact ⟨flushed.standing,flushed.closes,flushed.received,flushed.given,flushed.fed⟩
    | false => exact ⟨nofun,fun _ => ⟨answer,again,rfl⟩,rfl,rfl,.inl rfl⟩

theorem connect_fed (answer : SslAnswer) (connection : SecureConnection) :
    (sslConnect answer connection).2.ssl.fed = connection.ssl.fed := by
  have flushed (other : SecureConnection) : (flushEncryptedData answer other).2.ssl.fed = other.ssl.fed := by
    obtain ⟨result,sent,same⟩ := flush_cases answer other
    rw [same]
  unfold sslConnect handleSslError
  dsimp only
  split
  · exact flushed _
  · cases wants answer.err with
    | true => exact flushed _
    | false => rfl

theorem direct_steps (created : Created) (answer : SslAnswer) (now : Nat) (opening : Opening connection)
    (result : StateResult) :
    Steps connection (handleStateResultDirect created answer now connection result).1
      (handleStateResultDirect created answer now connection result).2 := by
  cases result with
  | sslConnect => exact connect_steps answer opening
  | recreateSsl =>
    unfold handleStateResultDirect createSsl
    have untouched : Standing connection := .inl opening
    cases created with
    | newFailed err => exact ⟨nofun,fun stands => absurd stands (standing_open untouched),rfl,rfl,.inl rfl⟩
    | bioFailed err => exact ⟨nofun,fun stands => absurd stands (standing_open untouched),rfl,rfl,.inl rfl⟩
    | session =>
      have fresh : Opening {connection with ssl := ⟨[],[]⟩} := ⟨opening.stands,List.not_mem_nil⟩
      have steps := connect_steps answer fresh
      exact ⟨steps.standing,steps.closes,steps.received,steps.given,.inr (steps.fed.elim id id)⟩
  | forceDtlsTimeout =>
    have still : Opening {connection with forced := connection.forced ++ [now]} := ⟨opening.stands,opening.connects⟩
    have steps := flush_steps answer (.inl still)
    exact ⟨steps.standing,steps.closes,steps.received,steps.given,steps.fed⟩
  | _ => exact steps_still (.inl opening)

theorem enter_opening (opening : Opening connection) :
    connection.machine.dispatch now now .enter = (.sslConnect,connection.machine.updateRetryTimer now) := by
  unfold StateMachine.dispatch
  rcases opening.stands with stands | stands
  · rw [stands]
    simp only [StateMachine.onStateCookieExchange]
  · rw [stands]
    simp only [StateMachine.onStateConnect]

-- By cases, so that the timers, products with a large number, are never computed.
theorem retry_state (machine : StateMachine) (now : Nat) :
    (machine.updateRetryTimer now).currentState = machine.currentState := by
  cases machine
  rfl

theorem result_steps (created : Created) (answer : SslAnswer) (now : Nat) (opening : Opening connection)
    (result : StateResult) :
    Steps connection (handleStateResult created answer now connection result).1
      (handleStateResult created answer now connection result).2 := by
  cases result with
  | handled => exact steps_still (.inl opening)
  | unhandled => exact steps_still (.inl opening)
  | transition =>
    unfold handleStateResult
    dsimp only
    rw [enter_opening opening]
    generalize timed : connection.machine.updateRetryTimer now = machine
    have entered : Opening {connection with machine := machine} :=
      ⟨by rw [← timed,retry_state]; exact opening.stands,opening.connects⟩
    have steps := connect_steps answer entered
    exact ⟨steps.standing,steps.closes,steps.received,steps.given,steps.fed⟩
  | sslConnect => exact connect_steps answer opening
  | forceDtlsTimeout => exact direct_steps created answer now opening .forceDtlsTimeout
  | recreateSsl => exact direct_steps created answer now opening .recreateSsl
  | _ => exact steps_still (.inl opening)

theorem incoming_opening (opening : Opening connection) :
    connection.machine.dispatch now now .newIncomingDgram = (.sslConnect,connection.machine) := by
  unfold StateMachine.dispatch
  rcases opening.stands with stands | stands <;> rw [stands] <;> rfl

theorem incoming_complete (complete : Complete connection) :
    connection.machine.dispatch now now .newIncomingDgram = (.sslRead,connection.machine) := by
  unfold StateMachine.dispatch
  rw [complete.stands]
  rfl

-- A datagram is given to the SSL object, which may take the handshake further.
structure Feeds (connection : SecureConnection) (packet : Bytes) (result : Except DriverError Unit)
    (after : SecureConnection) : Prop where
  standing : result = .ok () → Standing after ∧ after.given = connection.given ++ [packet] ∧
    after.ssl.fed = connection.ssl.fed ++ [packet]
  closes : Closes result after
  received : after.received = connection.received

theorem feed_feeds (packet : Bytes) (written : Int) (now : Nat) (answer : SslAnswer) (standing : Standing connection) :
    Feeds connection packet (feed packet written now answer connection).1 (feed packet written now answer connection).2 := by
  unfold feed
  split
  · exact ⟨nofun,fun stands => absurd stands (standing_open standing),rfl⟩
  · rename_i whole
    have fed : Standing {connection with
        ssl.fed := connection.ssl.fed ++ [packet], given := connection.given ++ [packet] } :=
      standing_same standing rfl rfl
    dsimp only
    rcases fed with opening | complete
    · rw [incoming_opening opening]
      have steps := connect_steps answer opening
      exact ⟨fun ok => ⟨steps.standing ok,steps.given,connect_fed answer _⟩,steps.closes,steps.received⟩
    · rw [incoming_complete complete]
      exact ⟨fun _ => ⟨.inr complete,rfl,rfl⟩,fun stands => absurd stands (standing_open (.inr complete)),rfl⟩

-- Byte 13 tells the two kinds of packets apart.
theorem verify_not_request (verify : ConnectionSecurity.isHelloVerifyRequest packet = true) :
    ConnectionSecurity.isHelloRequestHandshake packet = false := by
  unfold ConnectionSecurity.isHelloVerifyRequest at verify
  unfold ConnectionSecurity.isHelloRequestHandshake
  split at verify
  · cases verify
  · rw [beq_iff_eq.mp verify]
    simp [ConnectionSecurity.helloVerifyRequest,ConnectionSecurity.helloRequest]

def toOpenSsl (packets : List Bytes) : List Bytes :=
  packets.filter fun packet => !ConnectionSecurity.isHelloRequestHandshake packet

structure Underway (connection : SecureConnection) : Prop where
  standing : Standing connection
  given : connection.given = toOpenSsl connection.received
  fed : connection.ssl.fed <:+ connection.given

theorem steps_underway (steps : Steps connection (.ok ()) after) (underway : Underway connection) : Underway after := by
  refine ⟨steps.standing rfl,?_,?_⟩
  · rw [steps.given,steps.received,underway.given]
  · rw [steps.given]
    rcases steps.fed with same | empty
    · rw [same]
      exact underway.fed
    · rw [empty]
      exact List.nil_suffix

theorem exchange_completed (stands : connection.machine.currentState = .cookieExchange) (now : Nat) :
    connection.machine.dispatch now now .cookieExchangeCompleted = (.transition,connection.machine.transition .connect) := by
  unfold StateMachine.dispatch
  rw [stands]
  rfl

-- The packets that the loop looks at itself.
theorem classify_cases (packet : Bytes) (now : Nat) (opening : Opening connection) :
    (∃ result machine, Opening {connection with machine := machine} ∧
      (result = .transition ∧ machine = connection.machine.transition .connect ∨
        result = .recreateSsl ∧ machine = connection.machine) ∧
      classify packet now connection = (!ConnectionSecurity.isHelloRequestHandshake packet,some result,
        {connection with machine := machine})) ∨
      classify packet now connection = (!ConnectionSecurity.isHelloRequestHandshake packet,none,connection) := by
  have moved : Opening {connection with machine := connection.machine.transition .connect} := ⟨.inr rfl,opening.connects⟩
  unfold classify
  dsimp only
  cases verify : ConnectionSecurity.isHelloVerifyRequest packet with
  | true =>
    rw [verify_not_request verify]
    rcases opening.stands with stands | stands
    · left
      refine ⟨.transition,_,moved,.inl ⟨rfl,rfl⟩,?_⟩
      rw [exchange_completed stands,stands]
      rfl
    · right
      rw [stands]
      rfl
  | false =>
    cases request : ConnectionSecurity.isHelloRequestHandshake packet with
    | false => exact .inr rfl
    | true =>
      left
      rcases opening.stands with stands | stands
      · refine ⟨.transition,_,moved,.inl ⟨rfl,rfl⟩,?_⟩
        rw [exchange_completed stands,stands]
        rfl
      · refine ⟨.recreateSsl,connection.machine,opening,.inr ⟨rfl,rfl⟩,?_⟩
        rw [stands]
        rfl

theorem update_machine (opening : Opening connection) (now later : Nat) :
    Opening {connection with machine := (connection.machine.dispatch now later .update).2} := by
  refine ⟨?_,opening.connects⟩
  have kept : (connection.machine.dispatch now later .update).2.currentState = connection.machine.currentState := by
    have retried : (connection.machine.retry now later).2.currentState = connection.machine.currentState := by
      unfold StateMachine.retry
      split
      · exact retry_state connection.machine later
      · rfl
    unfold StateMachine.dispatch
    rcases opening.stands with stands | stands
    · rw [stands]
      exact retried.trans stands
    · rw [stands]
      exact retried.trans stands
  change (connection.machine.dispatch now later .update).2.currentState = _ ∨ _
  rw [kept]
  exact opening.stands

-- One round of the loop's wait: the handshake goes on or fails.
structure Handles (result : Except DriverError Unit) (after : SecureConnection) : Prop where
  underway : result = .ok () → Underway after
  closes : Closes result after

theorem feed_handles (packet : Bytes) (written : Int) (now : Nat) (answer : SslAnswer) (standing : Standing connection)
    (fed : connection.ssl.fed <:+ connection.given)
    (given : connection.given ++ [packet] = toOpenSsl connection.received) :
    Handles (feed packet written now answer connection).1 (feed packet written now answer connection).2 := by
  have feeds := feed_feeds packet written now answer standing
  refine ⟨?_,feeds.closes⟩
  intro ok
  obtain ⟨stands,gave,into⟩ := feeds.standing ok
  refine ⟨stands,?_,?_⟩
  · rw [gave,feeds.received,given]
  · rw [gave,into]
    obtain ⟨front,same⟩ := fed
    exact ⟨front,by rw [← same,List.append_assoc]⟩

theorem request_dropped (packets : List Bytes) (request : ConnectionSecurity.isHelloRequestHandshake packet = true) :
    toOpenSsl (packets ++ [packet]) = toOpenSsl packets := by
  simp [toOpenSsl,request]

theorem other_kept (packets : List Bytes) (other : ConnectionSecurity.isHelloRequestHandshake packet = false) :
    toOpenSsl (packets ++ [packet]) = toOpenSsl packets ++ [packet] := by
  simp [toOpenSsl,other]

-- What is left to do with a packet after the loop has looked at it.
theorem kept_handles (packet : Bytes) (written : Int) (now : Nat) (answer : SslAnswer) (standing : Standing after)
    (fed : after.ssl.fed <:+ after.given) (given : after.given = toOpenSsl packets)
    (received : after.received = packets ++ [packet]) :
    Handles (if (!ConnectionSecurity.isHelloRequestHandshake packet) = true then feed packet written now answer after
        else (.ok (),after)).1
      (if (!ConnectionSecurity.isHelloRequestHandshake packet) = true then feed packet written now answer after
        else (.ok (),after)).2 := by
  cases request : ConnectionSecurity.isHelloRequestHandshake packet with
  | false =>
    apply feed_handles packet written now answer standing fed
    rw [given,received,other_kept packets request]
  | true =>
    refine ⟨fun _ => ⟨standing,?_,fed⟩,fun stands => absurd stands (standing_open standing)⟩
    change after.given = toOpenSsl after.received
    rw [given,received,request_dropped packets request]

theorem handle_handles (opening : Opening connection) (underway : Underway connection) (event : HandshakeEvent) :
    Handles (connection.handle event).1 (connection.handle event).2 := by
  cases event with
  | recvFailed err => exact ⟨nofun,fun stands => absurd stands (standing_open (.inl opening))⟩
  | timer now later answer =>
    have moved := update_machine opening now later
    have steps := result_steps .session answer now moved (connection.machine.dispatch now later .update).1
    refine ⟨?_,steps.closes⟩
    intro ok
    have before : Underway {connection with machine := (connection.machine.dispatch now later .update).2} :=
      ⟨.inl moved,underway.given,underway.fed⟩
    unfold handle at ok ⊢
    dsimp only at ok ⊢
    rw [ok] at steps
    exact steps_underway steps before
  | received packet written now created special incoming =>
    unfold handle
    dsimp only
    have heard : Opening {connection with received := connection.received ++ [packet]} := ⟨opening.stands,opening.connects⟩
    rcases classify_cases packet now heard with ⟨result,machine,moved,_,same⟩ | same
    · rw [same]
      dsimp only
      have steps := result_steps created special now moved result
      split
      · rename_i err failed ended
        rw [ended] at steps
        exact ⟨nofun,steps.closes⟩
      · rename_i done ended
        rw [ended] at steps
        apply kept_handles packet written now incoming (steps.standing rfl) _ (steps.given.trans underway.given)
          steps.received
        rw [steps.given]
        rcases steps.fed with kept | empty
        · rw [kept]
          exact underway.fed
        · rw [empty]
          exact List.nil_suffix
    · rw [same]
      exact kept_handles packet written now incoming (.inl heard) underway.fed underway.given rfl

theorem new_opening (created : Nat) : Opening (new created) := ⟨.inl rfl,List.not_mem_nil⟩

theorem start_handles (created now : Nat) (answer : SslAnswer) :
    Handles (start created now answer).1 (start created now answer).2 := by
  unfold start
  dsimp only
  rw [enter_opening (new_opening created)]
  generalize timed : (new created).machine.updateRetryTimer now = machine
  have entered : Opening {new created with machine := machine} :=
    ⟨by rw [← timed,retry_state]; exact (new_opening created).stands,List.not_mem_nil⟩
  have steps := result_steps .session answer now entered .sslConnect
  refine ⟨?_,steps.closes⟩
  intro ok
  rw [ok] at steps
  exact steps_underway steps ⟨.inl entered,rfl,List.suffix_refl _⟩

-- What the outcome says about the connection at any time.
structure Concludes (outcome : Option (Except DriverError Unit)) (connection : SecureConnection) : Prop where
  underway : outcome = none ∨ outcome = some (.ok ()) → Underway connection
  established : outcome = some (.ok ()) → Complete connection
  closes : connection.machine.currentState = .disconnected → ∃ answer : SslAnswer, wants answer.err = false ∧
    outcome = some (.error (.ssl ("SSL error " ++ toString answer.err ++ " (code: 0x" ++ hex answer.code ++ ")")))

theorem turn_concludes (underway : Underway connection) (checkedAt : Nat) (event : HandshakeEvent) :
    Concludes (connection.turn checkedAt event).1 (connection.turn checkedAt event).2 := by
  have going := standing_open underway.standing
  unfold turn
  split
  · rename_i established
    refine ⟨fun _ => underway,fun _ => ?_,fun stands => absurd stands going⟩
    rcases underway.standing with ⟨stands | stands,_⟩ | complete
    · rw [stands] at established
      cases established
    · rw [stands] at established
      cases established
    · exact complete
  · rename_i unfinished
    have opening : Opening connection := underway.standing.resolve_right fun complete => unfinished complete.stands
    split
    · exact ⟨nofun,nofun,fun stands => absurd stands going⟩
    · have handles := handle_handles opening underway event
      split
      · rename_i err after ended
        rw [ended] at handles
        refine ⟨nofun,nofun,fun stands => ?_⟩
        obtain ⟨answer,fatal,same⟩ := handles.closes stands
        exact ⟨answer,fatal,congrArg some same⟩
      · rename_i after ended
        rw [ended] at handles
        have on := handles.underway rfl
        exact ⟨fun _ => on,nofun,fun stands => absurd stands (standing_open on.standing)⟩

theorem turns_conclude (underway : Underway connection) (turns : List (Nat × HandshakeEvent)) :
    Concludes (connection.processTurns turns).1 (connection.processTurns turns).2 := by
  induction turns generalizing connection with
  | nil => exact ⟨fun _ => underway,nofun,fun stands => absurd stands (standing_open underway.standing)⟩
  | cons first rest ih =>
    obtain ⟨checkedAt,event⟩ := first
    have concludes := turn_concludes underway checkedAt event
    unfold processTurns
    split
    · rename_i result after ended
      rw [ended] at concludes
      exact concludes
    · rename_i after ended
      rw [ended] at concludes
      exact ih (concludes.underway (.inl rfl))

-- Whatever OpenSSL answers: a connection is handed out only with an SSL object on
-- which SSL_connect returned 1, and only as its last call; Disconnected is never
-- found by the loop, since the error that leads to it ends the handshake at once;
-- and OpenSSL is given every datagram that is not a HelloRequest, once and in order.
theorem handshake_outcome (created now : Nat) (answer : SslAnswer) (turns : List (Nat × HandshakeEvent)) :
    Concludes (processConnection created now answer turns).1 (processConnection created now answer turns).2 := by
  have started := start_handles created now answer
  unfold processConnection
  split
  · rename_i err failed ended
    rw [ended] at started
    refine ⟨nofun,nofun,fun stands => ?_⟩
    obtain ⟨last,fatal,same⟩ := started.closes stands
    exact ⟨last,fatal,congrArg some same⟩
  · rename_i connection ended
    rw [ended] at started
    exact turns_conclude (started.underway rfl) turns

end SecureConnection
end NwNetwork.Gridmate
