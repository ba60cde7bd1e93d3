import NwNetwork.HubFraming

namespace NwNetwork.Gridmate
open WireReader Serialize

-- One correlated frame is parsed; an empty envelope, a frame that does not parse
-- and an unknown UUID give no event.
def typedEvent (schema : NetworkSchema) (session : SessionId) (channel : UInt8) (data : Bytes) : Option Event :=
  match readCorrelatedMessage data with
  | .ok (.ok (_,envelope_view),_) => eventFromMessageEnvelope schema session channel envelope_view
  | .ok (.error _,_) => none
  | .error _ => none

-- The events to send in order, and whether the run loop goes on when they are sent.
def inboundEvents (schema : NetworkSchema) (session : SessionId) : CarrierEvent → List Event × Bool
  | .messageReceived channel data =>
    if channel = systemChannel ∨ maxChannels ≤ channel.toNat then ([],true)
    else
      match CarrierChannel.fromU8 channel with
      | none => ([.received session channel data],true)
      | some channel_kind =>
        if channel_kind.carriesHubMessages then
          (.received session channel data :: (typedEvent schema session channel data).toList,true)
        else ([.received session channel data],true)
  | .disconnected reason => ([.disconnected session reason.debug],false)
  | .error _ => ([],true)
  | .connected _ => ([],true)

-- With nobody listening every send fails, and the first failed send ends the loop.
def handleInbound (schema : NetworkSchema) (listening : Bool) (session : Option SessionId) (msg : CarrierEvent) :
    List Event × Bool :=
  match session with
  | none => ([],true)
  | some session =>
    let (events,go_on) := inboundEvents schema session msg
    if listening ∨ events = [] then (events,go_on) else ([],false)

def Event.typed : Event → Option (UInt8 × BitVec 32 × Bytes)
  | .typedReceived _ channel type_index data => some (channel,type_index,data)
  | _ => none

-- The records of a correlated stream in order; an empty envelope is `none`.
def recordEnvelope (records : List (Option MessageEnvelopeView)) :
    Except MarshalerError (CorrelatedMetadata × MessageEnvelopeView) → Read (List (Option MessageEnvelopeView))
  | .ok (_,view) => pure (records ++ [some view])
  | .error .emptyEnvelope => pure (records ++ [none])
  | .error error => Reader.fail error

def recordStep (records : List (Option MessageEnvelopeView)) : Read (List (Option MessageEnvelopeView)) := do
  let parsed ← readCorrelatedMessage
  recordEnvelope records parsed

def hubRecords (data : Bytes) : List (Option MessageEnvelopeView) :=
  ((stepWhileUnread recordStep data.length [] data).map Prod.fst).getD []

def Resolves (schema : NetworkSchema) (record : Option MessageEnvelopeView) : Prop :=
  ∃ view, record = some view ∧ (view.typeId.resolvedTypeIndex schema).isSome = true

def HubEnvelopeSummary.typed (channel : UInt8) (envelope : HubEnvelopeSummary) : Option (UInt8 × BitVec 32 × Bytes) :=
  envelope.typeIndex.map fun type_index => (channel,type_index,envelope.body)

structure RecordsAgree (schema : NetworkSchema) (parsed : List HubEnvelopeSummary × Nat)
    (records : List (Option MessageEnvelopeView)) : Prop where
  envelopes : (records.filterMap id).map (summarizeEnvelope schema) = parsed.1

theorem record_step_agrees (agrees : RecordsAgree schema parsed records)
    (ran : parseHubStep schema .correlatedClientToServer total parsed bytes = .ok (next,left)) :
    ∃ next', recordStep records bytes = .ok (next',left) ∧ RecordsAgree schema next next' := by
  obtain ⟨message,read,parse,_⟩ := parseHubStep_parts ran
  obtain ⟨correlated,rest,read_correlated,mapped⟩ := Reader.bind_eq_ok.mp read
  cases mapped
  have stepped : recordStep records bytes = recordEnvelope records correlated left := Reader.bind_ok read_correlated
  cases correlated with
  | ok pair =>
    cases parse
    refine ⟨_,stepped,?_⟩
    constructor
    rw [List.filterMap_append,List.map_append,agrees.envelopes]
    rfl
  | error error =>
    cases error with
    | emptyEnvelope =>
      cases parse
      refine ⟨_,stepped,?_⟩
      constructor
      rw [List.filterMap_append,List.map_append,agrees.envelopes]
      exact List.append_nil _
    | _ => cases parse

theorem records_parsed (accepted : parseHubStream schema data .correlatedClientToServer = some (.ok parsed)) :
    stepWhileUnread recordStep data.length [] data = some (hubRecords data,none) ∧
      ((hubRecords data).filterMap id).map (summarizeEnvelope schema) = parsed.envelopes := by
  obtain ⟨empty_envelopes,ended⟩ := accepted_parts accepted
  have start : RecordsAgree schema ([],0) [] := ⟨rfl⟩
  obtain ⟨records,ran,agrees⟩ := loop_simulates record_step_agrees start ended
  have same : hubRecords data = records := by rw [hubRecords,ran]; rfl
  rw [same]
  exact ⟨ran,agrees.envelopes⟩

theorem records_grow (ended : stepWhileUnread recordStep fuel records bytes = some (final,stop)) : records <+: final := by
  refine loop_keeps (fun state => records <+: state) ?_ (List.prefix_refl records) ended
  intro state bytes next left grown ran
  obtain ⟨parsed,rest,_,recorded⟩ := Reader.bind_eq_ok.mp ran
  unfold recordEnvelope at recorded
  split at recorded
  · cases recorded; exact grown.trans (List.prefix_append _ _)
  · cases recorded; exact grown.trans (List.prefix_append _ _)
  · cases recorded

theorem accepted_unread (accepted : parseHubStream schema data path = some (.ok parsed)) : data ≠ [] := by
  intro empty
  rw [empty] at accepted
  cases accepted

-- The first record of an accepted stream is what the handler reads.
theorem first_record (accepted : parseHubStream schema data .correlatedClientToServer = some (.ok parsed))
    (session : SessionId) (channel : UInt8) :
    ∃ first others, hubRecords data = first :: others ∧
      typedEvent schema session channel data = first.bind (eventFromMessageEnvelope schema session channel) := by
  have unread := accepted_unread accepted
  obtain ⟨ended,_⟩ := records_parsed accepted
  obtain ⟨fuel,bytes⟩ : ∃ fuel, data.length = fuel+1 := ⟨data.length - 1,by have := List.length_pos_iff.mpr unread; omega⟩
  rw [bytes] at ended
  cases ran : recordStep [] data with
  | error error =>
    rw [loop_stopped unread ran] at ended
    exact absurd (Prod.mk.inj (Option.some.inj ended)).2 (Option.some_ne_none _)
  | ok pair =>
    obtain ⟨next,left⟩ := pair
    rw [loop_stepped unread ran] at ended
    obtain ⟨others,grown⟩ := records_grow ended
    obtain ⟨message,rest,read,recorded⟩ := Reader.bind_eq_ok.mp ran
    unfold typedEvent
    rw [read]
    cases message with
    | ok pair =>
      cases recorded
      exact ⟨some pair.2,others,grown.symm,rfl⟩
    | error error =>
      cases error with
      | emptyEnvelope => cases recorded; exact ⟨none,others,grown.symm,rfl⟩
      | _ => cases recorded

def typedRecord (schema : NetworkSchema) (channel : UInt8) (record : Option MessageEnvelopeView) :
    Option (UInt8 × BitVec 32 × Bytes) :=
  record.bind fun view => (view.typeId.resolvedTypeIndex schema).map fun type_index => (channel,type_index,view.body)

theorem typed_unresolved : typedRecord schema channel record = none ↔ ¬Resolves schema record := by
  cases record with
  | none => exact ⟨fun _ ⟨_,absent,_⟩ => (nomatch absent),fun _ => rfl⟩
  | some view =>
    unfold typedRecord Resolves
    cases resolved : view.typeId.resolvedTypeIndex schema <;> simp [resolved]

theorem typed_event (first : Option MessageEnvelopeView) (session : SessionId) :
    (first.bind (eventFromMessageEnvelope schema session channel)).toList.filterMap Event.typed =
      (typedRecord schema channel first).toList := by
  cases first with
  | none => rfl
  | some view =>
    unfold typedRecord eventFromMessageEnvelope
    cases resolved : view.typeId.resolvedTypeIndex schema <;> simp [resolved,Event.typed]

theorem typed_envelopes (records : List (Option MessageEnvelopeView)) :
    ((records.filterMap id).map (summarizeEnvelope schema)).filterMap (HubEnvelopeSummary.typed channel) =
      records.filterMap (typedRecord schema channel) := by
  induction records with
  | nil => rfl
  | cons record records ih =>
    cases record with
    | none => exact ih
    | some view =>
      have same : HubEnvelopeSummary.typed channel (summarizeEnvelope schema view) = typedRecord schema channel (some view) := rfl
      have kept : (some view :: records).filterMap id = view :: records.filterMap id := rfl
      rw [kept,List.map_cons,List.filterMap_cons,List.filterMap_cons,same,ih]

theorem none_typed (channel : UInt8) (records : List (Option MessageEnvelopeView)) :
    records.filterMap (typedRecord schema channel) = [] ↔ ∀ record ∈ records, ¬Resolves schema record := by
  rw [List.filterMap_eq_nil_iff]
  exact forall₂_congr fun record _ => typed_unresolved

theorem hub_channel (known : CarrierChannel.fromU8 channel = some channel_kind)
    (hub : channel_kind.carriesHubMessages = true) : ¬(channel = systemChannel ∨ maxChannels ≤ channel.toNat) := by
  unfold CarrierChannel.fromU8 at known
  split at known
  · rename_i zero; rw [zero]; decide
  · split at known
    · rename_i one; rw [one]; decide
    · split at known
      · cases known; cases hub
      · split at known
        · cases known; cases hub
        · cases known

-- The events of the handler are the resolved messages of the stream exactly when
-- no record but the first resolves, with a registered peer and a listening
-- application; without them exactly when no record resolves.
theorem server_dispatch (schema : NetworkSchema) (listening : Bool) (session : Option SessionId) (channel : UInt8)
    (data : Bytes) (known : CarrierChannel.fromU8 channel = some channel_kind)
    (hub : channel_kind.carriesHubMessages = true)
    (accepted : parseHubStream schema data .correlatedClientToServer = some (.ok parsed)) :
    (handleInbound schema listening session (.messageReceived channel data)).1.filterMap Event.typed =
        parsed.envelopes.filterMap (HubEnvelopeSummary.typed channel) ↔
      ∀ record ∈ (if session.isSome ∧ listening then (hubRecords data).tail else hubRecords data),
        ¬Resolves schema record := by
  obtain ⟨_,envelopes⟩ := records_parsed accepted
  rw [← envelopes,typed_envelopes,← none_typed channel]
  cases session with
  | none =>
    change [] = _ ↔ _
    rw [if_neg (by simp)]
    exact eq_comm
  | some session =>
    have events : inboundEvents schema session (.messageReceived channel data) =
        (.received session channel data :: (typedEvent schema session channel data).toList,true) := by
      unfold inboundEvents
      dsimp only
      rw [if_neg (hub_channel known hub),known]
      exact if_pos hub
    unfold handleInbound
    dsimp only
    rw [events]
    cases listening with
    | false =>
      change [] = _ ↔ _
      rw [if_neg (by simp)]
      exact eq_comm
    | true =>
      obtain ⟨first,others,split,typed⟩ := first_record accepted session channel
      change (typedEvent schema session channel data).toList.filterMap Event.typed = _ ↔ _
      rw [if_pos ⟨rfl,rfl⟩,split,typed,typed_event,List.tail_cons]
      cases head : typedRecord schema channel first with
      | none => rw [List.filterMap_cons_none head]; exact eq_comm
      | some message =>
        rw [List.filterMap_cons_some head]
        change [message] = message :: _ ↔ _
        rw [List.cons.injEq]
        exact ⟨fun same => same.2.symm,fun silent => ⟨rfl,silent.symm⟩⟩

def knownTypes : NetworkSchema := ⟨fun _ => none,fun _ => none⟩

theorem one_registered : (1 : BitVec 32) ≠ 0 := by decide

def correlatedByte (body : UInt8) : Bytes := marshalCorrelatedInto (longMessage 0).correlationId ⟨1,one_registered,[body]⟩

def byteSummary (body : UInt8) : HubEnvelopeSummary := ⟨some 1,"<unknown-message>",[body],1⟩

theorem server_dispatch_one :
    ((handleInbound knownTypes true (some 0) (.messageReceived 0 (correlatedByte 7))).1.filterMap Event.typed =
        [byteSummary 7].filterMap (HubEnvelopeSummary.typed 0) ↔
      ∀ record ∈ (hubRecords (correlatedByte 7)).tail, ¬Resolves knownTypes record) ∧
    (hubRecords (correlatedByte 7)).tail = [] := by
  have accepted : parseHubStream knownTypes (correlatedByte 7) .correlatedClientToServer =
      some (.ok ⟨.correlatedClientToServer,[byteSummary 7],0⟩) := by decide +kernel
  exact ⟨server_dispatch knownTypes true (some 0) 0 (correlatedByte 7) rfl rfl accepted,by decide +kernel⟩

-- Two messages in one carrier message: the second is not dispatched.
theorem second_message_lost :
    ¬∀ (schema : NetworkSchema) (session : SessionId) (channel : UInt8) (channel_kind : CarrierChannel) (data : Bytes)
      (parsed : ParsedHubStream),
      CarrierChannel.fromU8 channel = some channel_kind → channel_kind.carriesHubMessages = true →
      parseHubStream schema data .correlatedClientToServer = some (.ok parsed) →
      (handleInbound schema true (some session) (.messageReceived channel data)).1.filterMap Event.typed =
        parsed.envelopes.filterMap (HubEnvelopeSummary.typed channel) := by
  intro dispatched
  have accepted : parseHubStream knownTypes (correlatedByte 7 ++ correlatedByte 8) .correlatedClientToServer =
      some (.ok ⟨.correlatedClientToServer,[byteSummary 7,byteSummary 8],0⟩) := by decide +kernel
  have lost := dispatched knownTypes 0 0 .gameData _ _ rfl rfl accepted
  exact absurd lost (by decide +kernel)

end NwNetwork.Gridmate
