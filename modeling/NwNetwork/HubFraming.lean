import NwNetwork.HubMessageStream

namespace NwNetwork.Gridmate
open WireReader Serialize

theorem shortens_readSizedMessage : Shortens readSizedMessage := by
  refine shortens_vlqU32.bind fun size => ?_
  apply Keeps.bind
  · intro bytes _ left ran
    unfold checkEnvelopeSize at ran
    split at ran <;> cases ran
    exact Nat.le_refl _
  · intro _
    apply Keeps.bind
    · exact (keeps_readBytes _).bind fun _ => keeps_pure _
    · exact fun _ => keeps_pure _

theorem parseHubStep_parts (ran : parseHubStep schema path total parsed bytes = .ok (next,left)) :
    ∃ message, readMessage path bytes = .ok (message,left) ∧
      parseEnvelope schema path (total - bytes.length) total parsed message = .ok next ∧ left.length < bytes.length := by
  unfold parseHubStep at ran
  dsimp only at ran
  split at ran
  · cases ran
  · rename_i message rest read
    split at ran
    · cases ran
    · rename_i pushed parse
      split at ran
      · cases ran
      · rename_i advanced
        cases ran
        exact ⟨message,read,parse,Nat.lt_of_not_le advanced⟩

theorem accepted_parts (accepted : parseHubStream schema data path = some (.ok parsed)) :
    ∃ empty_envelopes, stepWhileUnread (parseHubStep schema path data.length) data.length ([],0) data =
      some ((parsed.envelopes,empty_envelopes),none) := by
  unfold parseHubStream at accepted
  obtain ⟨⟨⟨envelopes,empty_envelopes⟩,stop⟩,ended,finished⟩ := Option.map_eq_some_iff.mp accepted
  cases stop with
  | some error => cases finished
  | none =>
    unfold finishHubStream at finished
    dsimp only at finished
    split at finished
    · cases finished
    · injection finished with same
      rw [← same]
      exact ⟨empty_envelopes,ended⟩

theorem parse_ends (schema : NetworkSchema) (data : Bytes) (path : HubWirePath) :
    ∃ outcome, parseHubStream schema data path = some outcome := by
  have shortens : ∀ parsed, Shortens (parseHubStep schema path data.length parsed) := by
    intro parsed bytes next left ran
    obtain ⟨_,_,_,advanced⟩ := parseHubStep_parts ran
    exact advanced
  obtain ⟨ended,ran⟩ : ∃ ended, stepWhileUnread (parseHubStep schema path data.length) data.length ([],0) data =
    some ended := loop_ends shortens (Nat.le_refl _)
  exact ⟨finishHubStream path ended,by rw [parseHubStream,ran]; rfl⟩

theorem keeps_dispatchEnvelope (schema : NetworkSchema) (session : SessionId) (channel : UInt8) (dispatched : Dispatched)
    (parsed : Except MarshalerError (SizedEnvelopeMetadata × MessageEnvelopeView)) :
    Keeps (dispatchEnvelope schema session channel dispatched parsed) := by
  unfold dispatchEnvelope
  split
  · exact keeps_pure _
  · exact keeps_pure _
  · exact (shortens_fail _).keeps

theorem dispatch_ends (schema : NetworkSchema) (session : SessionId) (channel : UInt8) (data : Bytes) :
    ∃ dispatched, dispatchMessages schema session channel data = some dispatched := by
  have shortens : ∀ dispatched, Shortens (dispatchStep schema session channel dispatched) := fun dispatched =>
    shortens_readSizedMessage.bind (keeps_dispatchEnvelope schema session channel dispatched)
  obtain ⟨ended,ran⟩ : ∃ ended, stepWhileUnread (dispatchStep schema session channel) data.length ⟨[],[]⟩ data =
    some ended := loop_ends shortens (Nat.le_refl _)
  exact ⟨ended.1,by rw [dispatchMessages,ran]; rfl⟩

-- What the dispatch loop has read when the replay parser is at the same byte.
structure DispatchAgrees (schema : NetworkSchema) (session : SessionId) (channel : UInt8)
    (parsed : List HubEnvelopeSummary × Nat) (dispatched : Dispatched) : Prop where
  envelopes : dispatched.views.map (summarizeEnvelope schema) = parsed.1
  events : dispatched.events = dispatched.views.filterMap (eventFromMessageEnvelope schema session channel)

theorem dispatch_step_agrees (agrees : DispatchAgrees schema session channel parsed dispatched)
    (ran : parseHubStep schema .sizedServerToClient total parsed bytes = .ok (next,left)) :
    ∃ next', dispatchStep schema session channel dispatched bytes = .ok (next',left) ∧
      DispatchAgrees schema session channel next next' := by
  obtain ⟨message,read,parse,_⟩ := parseHubStep_parts ran
  obtain ⟨sized,rest,read_sized,mapped⟩ := Reader.bind_eq_ok.mp read
  cases mapped
  have stepped : dispatchStep schema session channel dispatched bytes =
      dispatchEnvelope schema session channel dispatched sized left := Reader.bind_ok read_sized
  cases sized with
  | ok pair =>
    obtain ⟨metadata,view⟩ := pair
    cases parse
    refine ⟨_,stepped,?_,?_⟩
    · simp [agrees.envelopes]
    · rw [List.filterMap_append,← agrees.events]
      cases event : eventFromMessageEnvelope schema session channel view with
      | none => simp [event]
      | some event' => simp [event]
  | error error =>
    cases error with
    | emptyEnvelope => cases parse; exact ⟨dispatched,stepped,⟨agrees.envelopes,agrees.events⟩⟩
    | _ => cases parse

-- On every stream that the replay parser accepts, the dispatch loop reads the same
-- envelopes to the end.
theorem dispatch_reads_parsed (accepted : parseHubStream schema data .sizedServerToClient = some (.ok parsed))
    (session : SessionId) (channel : UInt8) :
    ∃ dispatched, dispatchMessages schema session channel data = some dispatched ∧
      dispatched.views.map (summarizeEnvelope schema) = parsed.envelopes ∧
      dispatched.events = dispatched.views.filterMap (eventFromMessageEnvelope schema session channel) := by
  obtain ⟨empty_envelopes,ended⟩ := accepted_parts accepted
  have start : DispatchAgrees schema session channel ([],0) ⟨[],[]⟩ := ⟨rfl,rfl⟩
  obtain ⟨dispatched,ran,agrees⟩ := loop_simulates dispatch_step_agrees start ended
  exact ⟨dispatched,by rw [dispatchMessages,ran]; rfl,agrees.envelopes,agrees.events⟩

def HubMessage.view (message : HubMessage) : MessageEnvelopeView :=
  ⟨message.marshalEnvelope,0,none,none,1,.typeIndex message.typeIndex,message.body⟩

theorem envelope_back (message : HubMessage) (raw : Bytes) :
    readEnvelope raw message.marshalEnvelope =
      .ok (⟨raw,0,none,none,1,.typeIndex message.typeIndex,message.body⟩,[]) := by
  have index := (vlqU32_back message.typeIndex).bind (fun vlq_value => do
    let type_id ← readTypeId vlq_value
    let body ← readRemaining
    pure (⟨raw,0,none,none,1,type_id,body⟩ : MessageEnvelopeView)) message.body
  refine Eq.trans rfl (index.trans ?_)
  · unfold readTypeId
    rw [if_neg message.registered]
    rfl

theorem readMessageEnvelope_back (message : HubMessage) (rest : Bytes) :
    readMessageEnvelope message.marshalEnvelope.length (message.marshalEnvelope ++ rest) = .ok (.ok message.view,rest) := by
  unfold readMessageEnvelope
  rw [Reader.bind_ok (readBytes_append _ _),envelope_back]
  rfl

theorem marshalEnvelope_cons (message : HubMessage) :
    message.marshalEnvelope = 0 :: 1 :: (marshalVlqU32 message.typeIndex ++ message.body) := rfl

theorem sized_back (fits : message.marshalEnvelope.length < 2^32) (rest : Bytes) :
    readSizedMessage (marshalSizedInto message ++ rest) =
      .ok (.ok (⟨BitVec.ofNat 32 message.marshalEnvelope.length⟩,message.view),rest) := by
  have size : (BitVec.ofNat 32 message.marshalEnvelope.length).toNat = message.marshalEnvelope.length := by
    rw [BitVec.toNat_ofNat,Nat.mod_eq_of_lt fits]
  have positive : message.marshalEnvelope.length ≠ 0 := by rw [marshalEnvelope_cons]; exact Nat.succ_ne_zero _
  have checked : checkEnvelopeSize message.marshalEnvelope.length (message.marshalEnvelope ++ rest) =
      .ok ((),message.marshalEnvelope ++ rest) := by
    unfold checkEnvelopeSize
    rw [if_neg (by simp [positive])]
  unfold marshalSizedInto readSizedMessage
  dsimp only
  rw [List.append_assoc,(vlqU32_back _).bind,size,Reader.bind_ok checked,
    Reader.bind_ok (readMessageEnvelope_back message rest)]
  rfl

theorem correlated_back (fits : 16 + message.marshalEnvelope.length < 2^32) (correlation_id : Uuid) (rest : Bytes) :
    readCorrelatedMessage (marshalCorrelatedInto correlation_id message ++ rest) =
      .ok (.ok (⟨crc32Chunks [correlation_id.bytes,message.marshalEnvelope],
        BitVec.ofNat 32 (16 + message.marshalEnvelope.length),correlation_id⟩,message.view),rest) := by
  have payload : (BitVec.ofNat 32 (16 + message.marshalEnvelope.length)).toNat = 16 + message.marshalEnvelope.length := by
    rw [BitVec.toNat_ofNat,Nat.mod_eq_of_lt fits]
  have sub : checkedSub (BitVec.ofNat 32 (16 + message.marshalEnvelope.length)) = pure message.marshalEnvelope.length := by
    unfold checkedSub
    rw [payload,if_neg (by omega),Nat.add_sub_cancel_left]
  have available : checkLeft message.marshalEnvelope.length (message.marshalEnvelope ++ rest) =
      .ok ((),message.marshalEnvelope ++ rest) := by
    unfold checkLeft
    rw [if_neg (by simp)]
  have crc : checkCrc (crc32Chunks [correlation_id.bytes,message.marshalEnvelope]) correlation_id
      message.marshalEnvelope.length (message.marshalEnvelope ++ rest) = .ok ((),message.marshalEnvelope ++ rest) := by
    simp [checkCrc]
  unfold marshalCorrelatedInto readCorrelatedMessage
  dsimp only
  rw [List.append_assoc,List.append_assoc,List.append_assoc,(u32_back _).bind,(u32_back _).bind,(uuid_back _).bind,sub,
    Reader.bind_ok (Reader.pure_run _ _),Reader.bind_ok available,Reader.bind_ok crc,
    Reader.bind_ok (readMessageEnvelope_back message rest)]
  rfl

-- The length fields have 32 bits.
def LengthFits (sent : SentMessage) : HubWirePath → Prop
  | .sizedServerToClient => sent.message.marshalEnvelope.length < 2^32
  | .correlatedClientToServer => 16 + sent.message.marshalEnvelope.length < 2^32

theorem message_back (fits : LengthFits sent path) (rest : Bytes) :
    readMessage path (marshalFramed sent path ++ rest) =
      .ok (.ok ((sent.received path).correlationId,sent.message.view),rest) := by
  cases path with
  | sizedServerToClient => exact (Reader.bind_ok (sized_back fits rest)).trans rfl
  | correlatedClientToServer => exact (Reader.bind_ok (correlated_back fits sent.correlationId rest)).trans rfl

theorem collect_message (fits : LengthFits sent path) (received : List ReceivedMessage) (rest : Bytes) :
    collectStep path received (marshalFramed sent path ++ rest) = .ok (received ++ [sent.received path],rest) := by
  unfold collectStep
  rw [Reader.bind_ok (message_back fits rest)]
  rfl

theorem vlqU32_length (v : BitVec 32) : (marshalVlqU32 v).length ≤ 5 := by
  have bytes : ∀ count value, (leBytes count value).length = count := by
    intro count
    induction count with
    | zero => intro value; rfl
    | succ count ih => intro value; rw [leBytes,List.length_cons,ih]
  have small := (vlqU32Extra_fits v).1
  unfold marshalVlqU32 vlqForm
  rw [List.length_cons,bytes]
  omega

theorem envelope_length (message : HubMessage) : message.marshalEnvelope.length ≤ 7 + message.body.length := by
  have index := vlqU32_length message.typeIndex
  rw [marshalEnvelope_cons,List.length_cons,List.length_cons,List.length_append]
  omega

theorem body_fits (fits : LengthFits sent .sizedServerToClient) : 3 + sent.message.body.length < 2^32 := by
  have first : 0 < (marshalVlqU32 sent.message.typeIndex).length := Nat.succ_pos _
  have whole : sent.message.marshalEnvelope.length < 2^32 := fits
  rw [marshalEnvelope_cons,List.length_cons,List.length_cons,List.length_append] at whole
  omega

theorem keeps_readFixed8 (present : Bool) : Keeps (readFixed8 present) := by
  unfold readFixed8
  split
  · exact (keeps_readBytes 8).bind fun _ => keeps_pure _
  · exact keeps_pure _

theorem keeps_checkEnvelopeFlags (envelope_flags : UInt8) : Keeps (checkEnvelopeFlags envelope_flags) := by
  unfold checkEnvelopeFlags
  split
  · exact (shortens_fail _).keeps
  · split
    · exact (shortens_fail _).keeps
    · exact keeps_pure _

theorem keeps_readTypeId (vlq_value : BitVec 32) : Keeps (readTypeId vlq_value) := by
  unfold readTypeId
  split
  · exact keeps_readUuid.bind fun _ => keeps_pure _
  · exact keeps_pure _

theorem body_no_longer (ran : readEnvelope raw bytes = .ok (view,left)) : view.body.length ≤ bytes.length := by
  obtain ⟨outer_flags,after_outer,outer,ran⟩ := Reader.bind_eq_ok.mp ran
  obtain ⟨field1,after_field1,read_field1,ran⟩ := Reader.bind_eq_ok.mp ran
  obtain ⟨field2,after_field2,read_field2,ran⟩ := Reader.bind_eq_ok.mp ran
  obtain ⟨envelope_flags,after_flags,flags,ran⟩ := Reader.bind_eq_ok.mp ran
  obtain ⟨_,checked,check,ran⟩ := Reader.bind_eq_ok.mp ran
  obtain ⟨vlq_value,after_vlq,vlq,ran⟩ := Reader.bind_eq_ok.mp ran
  obtain ⟨type_id,after_id,id,ran⟩ := Reader.bind_eq_ok.mp ran
  cases ran
  calc after_id.length
      _ ≤ after_vlq.length := keeps_readTypeId vlq_value id
      _ ≤ checked.length := shortens_vlqU32.keeps vlq
      _ ≤ after_flags.length := keeps_checkEnvelopeFlags envelope_flags check
      _ ≤ after_field2.length := shortens_readU8.keeps flags
      _ ≤ after_field1.length := keeps_readFixed8 _ read_field2
      _ ≤ after_outer.length := keeps_readFixed8 _ read_field1
      _ ≤ bytes.length := shortens_readU8.keeps outer

theorem readTypeId_error (failed : readTypeId vlq_value bytes = .error error) :
    ∃ needed available, error = .bufferUnderrun needed available := by
  unfold readTypeId at failed
  split at failed
  · cases read : readUuid bytes with
    | error inner =>
      rw [Reader.bind_error read] at failed
      cases failed
      unfold readUuid at read
      split at read
      · cases read
      · cases read; exact ⟨_,_,rfl⟩
    | ok pair => rw [Reader.bind_ok read] at failed; cases failed
  · cases failed

-- An envelope that begins as every marshaled one does is never taken for an
-- empty one, wherever it is cut.
theorem cut_not_empty (message : HubMessage) (size : Nat) (raw : Bytes)
    (failed : readEnvelope raw (message.marshalEnvelope.take size) = .error error) : error ≠ .emptyEnvelope := by
  rw [marshalEnvelope_cons] at failed
  rcases size with _ | _ | size
  · cases failed; exact nofun
  · cases failed; exact nofun
  · have fields : readEnvelope raw (0 :: 1 :: ((marshalVlqU32 message.typeIndex ++ message.body).take size)) =
        (do
          let vlq_value ← unmarshalVlqU32
          let type_id ← readTypeId vlq_value
          let body ← readRemaining
          pure ⟨raw,0,none,none,1,type_id,body⟩ : Read MessageEnvelopeView)
          ((marshalVlqU32 message.typeIndex ++ message.body).take size) := rfl
    rw [List.take_succ_cons,List.take_succ_cons,fields] at failed
    cases vlq : unmarshalVlqU32 ((marshalVlqU32 message.typeIndex ++ message.body).take size) with
    | error inner =>
      obtain ⟨_,_,underrun⟩ := vlqU32_error vlq
      rw [Reader.bind_error vlq] at failed
      cases failed
      rw [underrun]
      exact nofun
    | ok pair =>
      rw [Reader.bind_ok vlq] at failed
      cases id : readTypeId pair.1 pair.2 with
      | error inner =>
        obtain ⟨_,_,underrun⟩ := readTypeId_error id
        rw [Reader.bind_error id] at failed
        cases failed
        rw [underrun]
        exact nofun
      | ok typed => rw [Reader.bind_ok id] at failed; cases failed

-- What comes out of the bytes of a message whose length field cannot say how
-- long it is.
def NotReceived (sent : SentMessage) (parsed : Except MarshalerError (Option Uuid × MessageEnvelopeView)) : Prop :=
  match parsed with
  | .ok (_,view) => view.body.length < sent.message.body.length
  | .error error => error ≠ .emptyEnvelope

theorem cut_envelope (short : size + 7 < sent.message.marshalEnvelope.length)
    (ran : readMessageEnvelope size (sent.message.marshalEnvelope ++ rest) = .ok (parsed,left)) (id : Option Uuid) :
    NotReceived sent (parsed.map fun view => (id,view)) := by
  have available : size ≤ (sent.message.marshalEnvelope ++ rest).length := by rw [List.length_append]; omega
  have taken : readBytes size (sent.message.marshalEnvelope ++ rest) =
      .ok (sent.message.marshalEnvelope.take size,(sent.message.marshalEnvelope ++ rest).drop size) := by
    unfold readBytes
    rw [if_pos available,List.take_append_of_le_length (by omega)]
  unfold readMessageEnvelope at ran
  rw [Reader.bind_ok taken] at ran
  cases ran
  cases read : readEnvelope (sent.message.marshalEnvelope.take size) (sent.message.marshalEnvelope.take size) with
  | error error => exact cut_not_empty sent.message size _ read
  | ok pair =>
    have bound := body_no_longer read
    have length := envelope_length sent.message
    rw [List.length_take] at bound
    change pair.1.body.length < sent.message.body.length
    omega

theorem oversized_read (beyond : ¬LengthFits sent path)
    (ran : readMessage path (marshalFramed sent path ++ rest) = .ok (parsed,left)) : NotReceived sent parsed := by
  cases path with
  | sizedServerToClient =>
    obtain ⟨inner,after_message,ran,mapped⟩ := Reader.bind_eq_ok.mp ran
    cases mapped
    change readSizedMessage (marshalVlqU32 (BitVec.ofNat 32 sent.message.marshalEnvelope.length) ++
      sent.message.marshalEnvelope ++ rest) = _ at ran
    unfold readSizedMessage at ran
    rw [List.append_assoc,(vlqU32_back _).bind] at ran
    obtain ⟨_,checked,check,ran⟩ := Reader.bind_eq_ok.mp ran
    obtain ⟨view,after_view,read,mapped⟩ := Reader.bind_eq_ok.mp ran
    cases mapped
    unfold checkEnvelopeSize at check
    split at check <;> cases check
    have short : (BitVec.ofNat 32 sent.message.marshalEnvelope.length).toNat + 7 <
        sent.message.marshalEnvelope.length := by
      have large : 2^32 ≤ sent.message.marshalEnvelope.length := Nat.le_of_not_lt beyond
      rw [BitVec.toNat_ofNat]
      omega
    have cut := cut_envelope short read none
    cases view <;> exact cut
  | correlatedClientToServer =>
    obtain ⟨inner,after_message,ran,mapped⟩ := Reader.bind_eq_ok.mp ran
    cases mapped
    change readCorrelatedMessage (writeU32 _ ++ writeU32 (BitVec.ofNat 32 (16 + sent.message.marshalEnvelope.length)) ++
      sent.correlationId.bytes ++ sent.message.marshalEnvelope ++ rest) = _ at ran
    unfold readCorrelatedMessage at ran
    rw [List.append_assoc,List.append_assoc,List.append_assoc,(u32_back _).bind,(u32_back _).bind,(uuid_back _).bind] at ran
    obtain ⟨size,after_size,sub,ran⟩ := Reader.bind_eq_ok.mp ran
    obtain ⟨_,checked,check,ran⟩ := Reader.bind_eq_ok.mp ran
    obtain ⟨_,summed,crc,ran⟩ := Reader.bind_eq_ok.mp ran
    obtain ⟨view,after_view,read,mapped⟩ := Reader.bind_eq_ok.mp ran
    cases mapped
    unfold checkedSub at sub
    split at sub <;> cases sub
    unfold checkLeft at check
    split at check <;> cases check
    unfold checkCrc at crc
    dsimp only at crc
    split at crc <;> cases crc
    have short : (BitVec.ofNat 32 (16 + sent.message.marshalEnvelope.length)).toNat - 16 + 7 <
        sent.message.marshalEnvelope.length := by
      have large : 2^32 ≤ 16 + sent.message.marshalEnvelope.length := Nat.le_of_not_lt beyond
      rw [BitVec.toNat_ofNat]
      omega
    have cut := cut_envelope short read (some sent.correlationId)
    cases view <;> exact cut

theorem marshalFramed_ne_nil (sent : SentMessage) (path : HubWirePath) : marshalFramed sent path ≠ [] := by
  cases path with
  | sizedServerToClient => exact fun empty => List.cons_ne_nil _ _ (List.append_eq_nil_iff.mp empty).2
  | correlatedClientToServer => exact fun empty => List.cons_ne_nil _ _ (List.append_eq_nil_iff.mp empty).2

-- What was collected stays collected.
theorem collect_grows (ended : stepWhileUnread (collectStep path) fuel received bytes = some (final,stop)) :
    received <+: final := by
  refine loop_keeps (fun state => received <+: state) ?_ (List.prefix_refl received) ended
  intro state bytes next left grown ran
  obtain ⟨parsed,rest,_,collected⟩ := Reader.bind_eq_ok.mp ran
  unfold collectEnvelope at collected
  split at collected
  · cases collected; exact grown.trans (List.prefix_append _ _)
  · cases collected; exact grown
  · cases collected

theorem collected_fit (sents : List SentMessage) (received : List ReceivedMessage)
    (ended : stepWhileUnread (collectStep path) fuel received (sents.flatMap fun sent => marshalFramed sent path) =
      some (received ++ sents.map fun sent => sent.received path,none)) :
    ∀ sent ∈ sents, LengthFits sent path := by
  induction sents generalizing received fuel with
  | nil => intro sent absent; cases absent
  | cons sent sents ih =>
    have unread : marshalFramed sent path ++ sents.flatMap (fun sent => marshalFramed sent path) ≠ [] := fun empty =>
      marshalFramed_ne_nil sent path (List.append_eq_nil_iff.mp empty).1
    rw [List.flatMap_cons] at ended
    cases fuel with
    | zero =>
      obtain ⟨byte,rest,cons⟩ := List.exists_cons_of_ne_nil unread
      rw [cons] at ended
      cases ended
    | succ fuel =>
      by_cases fits : LengthFits sent path
      · have step := collect_message fits received (sents.flatMap fun sent => marshalFramed sent path)
        rw [loop_stepped unread step] at ended
        intro other member
        cases List.mem_cons.mp member with
        | inl same => rw [same]; exact fits
        | inr later => exact ih (received ++ [sent.received path]) (by rw [List.append_assoc]; exact ended) other later
      · exfalso
        cases ran : collectStep path received
            (marshalFramed sent path ++ sents.flatMap fun sent => marshalFramed sent path) with
        | error error =>
          rw [loop_stopped unread ran] at ended
          exact Option.some_ne_none _ (Prod.mk.inj (Option.some.inj ended)).2
        | ok pair =>
          obtain ⟨next,left⟩ := pair
          rw [loop_stepped unread ran] at ended
          have grown := collect_grows ended
          obtain ⟨parsed,after,read,collected⟩ := Reader.bind_eq_ok.mp ran
          have lost := oversized_read fits read
          cases parsed with
          | error error =>
            cases error with
            | emptyEnvelope => exact lost rfl
            | _ => cases collected
          | ok pair =>
            obtain ⟨id,view⟩ := pair
            cases collected
            have head := (List.prefix_append_right_inj received).mp grown
            rw [List.map_cons,List.cons_prefix_cons] at head
            have same : view.body = sent.message.body := congrArg ReceivedMessage.body head.1
            change view.body.length < sent.message.body.length at lost
            rw [same] at lost
            exact Nat.lt_irrefl _ lost

-- Messages come back exactly when every length field can say how long its
-- envelope is; whatever the replay parser accepts the dispatch loop reads; and
-- both loops end.
theorem hub_message_framing (schema : NetworkSchema) (path : HubWirePath) (sents : List SentMessage) (data : Bytes)
    (session : SessionId) (channel : UInt8) :
    (readMessages path (sents.flatMap fun sent => marshalFramed sent path) =
        some (sents.map fun sent => sent.received path,none) ↔ ∀ sent ∈ sents, LengthFits sent path) ∧
      (∀ parsed, parseHubStream schema data .sizedServerToClient = some (.ok parsed) →
        ∃ dispatched, dispatchMessages schema session channel data = some dispatched ∧
          dispatched.views.map (summarizeEnvelope schema) = parsed.envelopes) ∧
      (∃ outcome, parseHubStream schema data path = some outcome) ∧
      ∃ dispatched, dispatchMessages schema session channel data = some dispatched := by
  refine ⟨⟨?_,?_⟩,?_,parse_ends schema data path,dispatch_ends schema session channel data⟩
  · exact collected_fit sents []
  · intro fits
    let ready := fun (others : List SentMessage) (received : List ReceivedMessage) =>
      (∀ sent ∈ others, LengthFits sent path) ∧
        received ++ others.map (fun sent => sent.received path) = sents.map fun sent => sent.received path
    have taken : ∀ {sent others received}, ready (sent :: others) received → ∀ rest, ∃ next,
        collectStep path received (marshalFramed sent path ++ rest) = .ok (next,rest) ∧ ready others next := by
      intro sent others received coming rest
      refine ⟨_,collect_message (coming.1 sent List.mem_cons_self) received rest,?_,?_⟩
      · exact fun other member => coming.1 other (List.mem_cons_of_mem _ member)
      · rw [List.append_assoc]
        exact coming.2
    have start : ready sents [] := ⟨fits,rfl⟩
    obtain ⟨received,read,_,same⟩ := loop_reads_all taken sents (fun sent _ => marshalFramed_ne_nil sent path) start
    rw [List.map_nil,List.append_nil] at same
    rw [← same]
    exact read
  · intro parsed accepted
    obtain ⟨dispatched,ran,same,_⟩ := dispatch_reads_parsed accepted session channel
    exact ⟨dispatched,ran,same⟩

def longMessage (count : Nat) : SentMessage := ⟨⟨List.replicate 16 0,rfl⟩,⟨1,by decide,List.replicate count 0⟩⟩

theorem longMessage_body (count : Nat) : (longMessage count).message.body.length = count := List.length_replicate

-- A body that makes the envelope 4 GiB long: its size is written as zero.
theorem size_wraps_to_zero :
    ¬∀ (path : HubWirePath) (sents : List SentMessage),
      readMessages path (sents.flatMap fun sent => marshalFramed sent path) =
        some (sents.map fun sent => sent.received path,none) := by
  intro received
  have fits : LengthFits (longMessage (2^32 - 3)) .sizedServerToClient :=
    collected_fit [longMessage (2^32 - 3)] [] (received .sizedServerToClient _) _ List.mem_cons_self
  have small := body_fits fits
  rw [longMessage_body] at small
  exact absurd small (by decide)

end NwNetwork.Gridmate
