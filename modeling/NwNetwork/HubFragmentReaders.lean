import NwNetwork.HubStateRecord
import NwNetwork.RecordStream

namespace NwNetwork.Hub
open WireReader Serialize

structure BodyRange where
  start : Nat
  stop : Nat
  deriving DecidableEq, Repr

-- `F` is what the bodies are decoded to.
structure StateFragmentView (F : Type) where
  record : StateRecordHeader
  header : StateFragmentHeaderSpan
  body : Bytes
  bodyRange : BodyRange
  fragment : F
  deriving DecidableEq

-- `decode` picks a registration by the type info and runs it. It may read, fail or
-- move the cursor in any way, so that the range it leaves behind can be invalid.
abbrev DecodeContents (F : Type) := FragmentTypeInfo → Read F

def bytesIn (data : Bytes) (bounds : BodyRange) : Bytes := (data.drop bounds.start).take (bounds.stop - bounds.start)

def range (data : Bytes) (bounds : BodyRange) : Read Bytes := fun rb =>
  if bounds.start ≤ bounds.stop ∧ bounds.stop ≤ data.length then .ok (bytesIn data bounds,rb)
  else .error (.bufferUnderrun (bounds.stop - bounds.start) rb.length)

def decodeBody (total : Nat) (decode : DecodeContents F) (header : StateFragmentHeaderSpan) : Read (F × BodyRange) := do
  let body_start ← position total
  let fragment ← decode header.typeInfo
  let body_end ← position total
  pure (fragment,⟨body_start,body_end⟩)

theorem keeps_position (total : Nat) : Keeps (position total) := by
  intro bytes _ left ran
  cases ran
  exact Nat.le_refl _

theorem keeps_checkInterestId (interest_id : BitVec 32) : Keeps (checkInterestId interest_id) := by
  unfold checkInterestId
  split
  · exact (shortens_fail _).keeps
  · exact keeps_pure ()

theorem shortens_readStateRecordHeader (total : Nat) : Shortens (readStateRecordHeader total) := by
  refine (keeps_position total).bind_shortens fun start => shortens_vlqU32.bind fun interest_id => ?_
  refine (keeps_checkInterestId interest_id).bind fun _ => shortens_readU8.keeps.bind fun fragment_count => ?_
  exact (keeps_position total).bind fun header_end => keeps_pure _

theorem keeps_fragmentTypeInfoOf (type_index : BitVec 32) : Keeps (fragmentTypeInfoOf type_index) := by
  unfold fragmentTypeInfoOf
  split
  · exact keeps_readUuid.bind fun uuid => keeps_pure _
  · exact keeps_pure _

theorem shortens_readStateFragmentHeader (total : Nat) : Shortens (readStateFragmentHeader total) := by
  refine (keeps_position total).bind_shortens fun start => shortens_vlqU32.bind fun fragment_key => ?_
  refine Keeps.bind ?_ fun type_info => (keeps_position total).bind fun header_end => keeps_pure _
  exact shortens_vlqU32.keeps.bind keeps_fragmentTypeInfoOf

-- The iterator has an active record while it owes fragments.
structure StateFragmentIter where
  data : Bytes
  rb : Bytes
  currentRecord : Option StateRecordHeader
  fragmentsLeftInRecord : Nat
  exhausted : Bool
  active : 0 < fragmentsLeftInRecord → currentRecord.isSome
  deriving DecidableEq

namespace StateFragmentIter

def new (bundle_buffer : Bytes) : StateFragmentIter where
  data := bundle_buffer
  rb := bundle_buffer
  currentRecord := none
  fragmentsLeftInRecord := 0
  exhausted := false
  active := fun owes => absurd owes (Nat.lt_irrefl 0)

def exhaust (iter : StateFragmentIter) : StateFragmentIter := {iter with exhausted := true}

def enter (iter : StateFragmentIter) (record : StateRecordHeader) (rb : Bytes) : StateFragmentIter :=
  {iter with rb := rb, currentRecord := some record, fragmentsLeftInRecord := record.fragmentCount, active := fun _ => rfl}

def take (iter : StateFragmentIter) (rb : Bytes) : StateFragmentIter where
  data := iter.data
  rb := rb
  currentRecord := iter.currentRecord
  fragmentsLeftInRecord := iter.fragmentsLeftInRecord - 1
  exhausted := iter.exhausted
  active := fun owes => iter.active (Nat.lt_of_lt_of_le owes (Nat.sub_le _ _))

-- After a failed read the cursor is not looked at again.
def readNextRecord (iter : StateFragmentIter) : Option (Except MarshalerError Unit) × StateFragmentIter :=
  if iter.rb.isEmpty then (none,iter.exhaust)
  else match readStateRecordHeader iter.data.length iter.rb with
    | .ok (record,rb) => (some (.ok ()),iter.enter record rb)
    | .error error => (some (.error error),iter.exhaust)

def readNextFragment (decode : DecodeContents F) (iter : StateFragmentIter) (record : StateRecordHeader) :
    Except MarshalerError (StateFragmentView F) × StateFragmentIter :=
  match readStateFragmentHeader iter.data.length iter.rb with
  | .error error => (.error error,iter)
  | .ok (header,rb) =>
    match decodeBody iter.data.length decode header rb with
    | .error error => (.error error,iter)
    | .ok ((fragment,body_range),rb) =>
      match range iter.data body_range rb with
      | .error error => (.error error,iter.take rb)
      | .ok (body,_) => (.ok ⟨record,header,body,body_range,fragment⟩,iter.take rb)

theorem entered_shortens {iter entered : StateFragmentIter} (read : iter.readNextRecord = (some (.ok ()),entered)) :
    entered.rb.length < iter.rb.length := by
  unfold readNextRecord at read
  split at read
  · cases read
  · cases ran : readStateRecordHeader iter.data.length iter.rb with
    | error error => rw [ran] at read; cases read
    | ok pair =>
      rw [ran] at read
      cases read
      exact shortens_readStateRecordHeader _ ran

def next (decode : DecodeContents F) (iter : StateFragmentIter) :
    Option (Except MarshalerError (StateFragmentView F)) × StateFragmentIter :=
  if iter.exhausted then (none,iter)
  else if left : iter.fragmentsLeftInRecord = 0 then
    match _ : iter.readNextRecord with
    | (none,ended) => (none,ended)
    | (some (.ok ()),entered) => next decode entered
    | (some (.error error),failed) => (some (.error error),failed)
  else
    match iter.readNextFragment decode (iter.currentRecord.get (iter.active (Nat.pos_of_ne_zero left))) with
    | (.ok fragment,taken) => (some (.ok fragment),taken)
    | (.error error,failed) => (some (.error error),failed.exhaust)
termination_by iter.rb.length
decreasing_by exact entered_shortens ‹_›

-- What the call after `calls` others returns.
def nextAfter (decode : DecodeContents F) : Nat → StateFragmentIter → Option (Except MarshalerError (StateFragmentView F))
  | 0,iter => (iter.next decode).1
  | calls+1,iter => nextAfter decode calls (iter.next decode).2

end StateFragmentIter

-- One fragment of the stream; `bodyIn` cuts the body out of the buffer.
def fragmentIn (total : Nat) (decode : DecodeContents F) (bodyIn : BodyRange → Read Bytes) (record : StateRecordHeader) :
    Read (StateFragmentView F) := do
  let header ← readStateFragmentHeader total
  let (fragment,body_range) ← decodeBody total decode header
  let body ← bodyIn body_range
  pure ⟨record,header,body,body_range,fragment⟩

def bundleFormat (total : Nat) (decode : DecodeContents F) (bodyIn : BodyRange → Read Bytes) :
    RecordStream.Format MarshalerError StateRecordHeader (StateFragmentView F) where
  record := readStateRecordHeader total
  count := StateRecordHeader.fragmentCount
  item := fragmentIn total decode bodyIn

def BodyRange.Valid (bounds : BodyRange) (total : Nat) : Prop := bounds.start ≤ bounds.stop ∧ bounds.stop ≤ total

theorem decodeBody_ok {decode : DecodeContents F} (ran : decodeBody total decode header bytes = .ok ((fragment,bounds),left)) :
    decode header.typeInfo bytes = .ok (fragment,left) ∧ bounds = ⟨total - bytes.length,total - left.length⟩ := by
  obtain ⟨start,first,started,ran⟩ := Reader.bind_eq_ok.mp ran
  cases started
  obtain ⟨value,second,decoded,ran⟩ := Reader.bind_eq_ok.mp ran
  obtain ⟨stop,third,stopped,ran⟩ := Reader.bind_eq_ok.mp ran
  cases stopped
  cases ran
  exact ⟨decoded,rfl⟩

theorem fragmentIn_ok {decode : DecodeContents F} {bodyIn : BodyRange → Read Bytes} :
    fragmentIn total decode bodyIn record bytes = .ok (fragment,left) ↔
      ∃ header middle value bounds rest body, readStateFragmentHeader total bytes = .ok (header,middle) ∧
        decodeBody total decode header middle = .ok ((value,bounds),rest) ∧ bodyIn bounds rest = .ok (body,left) ∧
        fragment = ⟨record,header,body,bounds,value⟩ := by
  constructor
  · intro ran
    obtain ⟨header,middle,entered,ran⟩ := Reader.bind_eq_ok.mp ran
    obtain ⟨⟨value,bounds⟩,rest,decoded,ran⟩ := Reader.bind_eq_ok.mp ran
    obtain ⟨body,last,cut,ran⟩ := Reader.bind_eq_ok.mp ran
    cases ran
    exact ⟨header,middle,value,bounds,rest,body,entered,decoded,cut,rfl⟩
  · rintro ⟨header,middle,value,bounds,rest,body,entered,decoded,cut,rfl⟩
    unfold fragmentIn
    rw [Reader.bind_ok entered,Reader.bind_ok decoded]
    exact Reader.bind_ok cut

theorem fragmentIn_error {decode : DecodeContents F} {bodyIn : BodyRange → Read Bytes}
    (failed : fragmentIn total decode bodyIn record bytes = .error error) :
    readStateFragmentHeader total bytes = .error error ∨
      ∃ header middle, readStateFragmentHeader total bytes = .ok (header,middle) ∧
        (decodeBody total decode header middle = .error error ∨
          ∃ value bounds rest, decodeBody total decode header middle = .ok ((value,bounds),rest) ∧
            bodyIn bounds rest = .error error) := by
  obtain refused | ⟨header,middle,entered,failed⟩ := Reader.bind_eq_error.mp failed
  · exact .inl refused
  · refine .inr ⟨header,middle,entered,?_⟩
    obtain refused | ⟨⟨value,bounds⟩,rest,decoded,failed⟩ := Reader.bind_eq_error.mp failed
    · exact .inl refused
    · obtain cut | ⟨body,last,_,returned⟩ := Reader.bind_eq_error.mp failed
      · exact .inr ⟨value,bounds,rest,decoded,cut⟩
      · cases returned

theorem range_ok : range data bounds bytes = .ok (body,left) ↔
    bounds.Valid data.length ∧ left = bytes ∧ body = bytesIn data bounds := by
  unfold range
  split
  · rename_i valid
    simp only [Except.ok.injEq,Prod.mk.injEq]
    exact ⟨fun ⟨cut,same⟩ => ⟨valid,same.symm,cut.symm⟩,fun ⟨_,same,cut⟩ => ⟨cut.symm,same.symm⟩⟩
  · rename_i invalid
    exact ⟨nofun,fun ⟨valid,_⟩ => absurd valid invalid⟩

theorem range_error (cut : range data bounds bytes = .error error) : ¬ bounds.Valid data.length := by
  intro valid
  rw [range_ok.mpr ⟨valid,rfl,rfl⟩] at cut
  cases cut

theorem forward_valid {decode : DecodeContents F} (forward : Keeps (decode header.typeInfo))
    (decoded : decodeBody total decode header bytes = .ok ((fragment,bounds),left)) : bounds.Valid total := by
  obtain ⟨ran,rfl⟩ := decodeBody_ok decoded
  have kept := forward ran
  exact ⟨Nat.sub_le_sub_left kept total,Nat.sub_le _ _⟩

-- A decoder that moves the cursor back leaves a range that no buffer has.
theorem advances_bundle {decode : DecodeContents F} {bodyIn : BodyRange → Read Bytes}
    (valid : ∀ {bounds bytes body left}, bodyIn bounds bytes = .ok (body,left) → bounds.Valid total ∧ left = bytes) :
    (bundleFormat total decode bodyIn).Advances total where
  record := shortens_readStateRecordHeader total
  item := by
    intro record bytes fragment left within ran
    obtain ⟨header,middle,value,bounds,rest,body,entered,decoded,cut,-⟩ := fragmentIn_ok.mp ran
    have shorter := shortens_readStateFragmentHeader total entered
    obtain ⟨_,rfl⟩ := decodeBody_ok decoded
    obtain ⟨⟨ordered,_⟩,rfl⟩ := valid cut
    change total - middle.length ≤ total - left.length at ordered
    omega

namespace StateFragmentIter
variable {iter : StateFragmentIter} {decode : DecodeContents F}

-- The header of the active record once for every fragment that the record still owes.
def pending (iter : StateFragmentIter) : List StateRecordHeader :=
  iter.currentRecord.elim [] (List.replicate iter.fragmentsLeftInRecord)

theorem owes_none (owed : iter.pending = []) : iter.fragmentsLeftInRecord = 0 := by
  unfold pending at owed
  cases current : iter.currentRecord with
  | none =>
    have idle := iter.active
    rw [current] at idle
    exact Nat.eq_zero_of_not_pos fun owes => Bool.false_ne_true (idle owes)
  | some record =>
    rw [current] at owed
    exact (List.replicate_eq_nil_iff record).mp owed

theorem owes_some (owed : iter.pending = record :: others) :
    iter.currentRecord = some record ∧ iter.fragmentsLeftInRecord = others.length + 1 ∧
      others = List.replicate others.length record := by
  unfold pending at owed
  cases current : iter.currentRecord with
  | none => rw [current] at owed; cases owed
  | some owner =>
    rw [current] at owed
    obtain ⟨counted,each⟩ := List.eq_replicate_iff.mp owed.symm
    obtain rfl := each record List.mem_cons_self
    exact ⟨rfl,counted.symm,List.eq_replicate_iff.mpr ⟨rfl,fun other owing => each other (List.mem_cons_of_mem _ owing)⟩⟩

theorem next_exhausted (over_now : iter.exhausted = true) : iter.next decode = (none,iter) := by
  rw [next,if_pos over_now]

theorem nextAfter_exhausted (over_now : iter.exhausted = true) (calls : Nat) : iter.nextAfter decode calls = none := by
  induction calls with
  | zero => exact congrArg Prod.fst (next_exhausted over_now)
  | succ calls ih =>
    unfold nextAfter
    rw [next_exhausted over_now]
    exact ih

-- A call that exhausts the iterator is the last one that can return a value.
theorem nextAfter_stops (called : iter.next decode = (returned,after)) (stopped : after.exhausted = true) (calls : Nat) :
    iter.nextAfter decode calls = returned.toList[calls]? := by
  cases calls with
  | zero =>
    have first : iter.nextAfter decode 0 = returned := congrArg Prod.fst called
    rw [first]
    cases returned <;> rfl
  | succ calls =>
    have later : iter.nextAfter decode (calls+1) = after.nextAfter decode calls := by
      change (iter.next decode).2.nextAfter decode calls = _
      rw [called]
    rw [later,nextAfter_exhausted stopped]
    cases returned <;> rfl

theorem readNextRecord_ended (ended : iter.rb = []) : iter.readNextRecord = (none,iter.exhaust) := by
  unfold readNextRecord
  rw [ended]
  rfl

theorem readNextRecord_ok (unread : iter.rb ≠ []) (read : readStateRecordHeader iter.data.length iter.rb = .ok (record,left)) :
    iter.readNextRecord = (some (.ok ()),iter.enter record left) := by
  unfold readNextRecord
  rw [if_neg (by simpa using unread),read]

theorem readNextRecord_error (unread : iter.rb ≠ []) (failed : readStateRecordHeader iter.data.length iter.rb = .error error) :
    iter.readNextRecord = (some (.error error),iter.exhaust) := by
  unfold readNextRecord
  rw [if_neg (by simpa using unread),failed]

theorem readNextFragment_ok (read : fragmentIn iter.data.length decode (range iter.data) record iter.rb = .ok (fragment,left)) :
    iter.readNextFragment decode record = (.ok fragment,iter.take left) := by
  obtain ⟨header,middle,value,bounds,rest,body,entered,decoded,cut,rfl⟩ := fragmentIn_ok.mp read
  obtain ⟨_,rfl,_⟩ := range_ok.mp cut
  unfold readNextFragment
  simp only [entered,decoded,cut]

theorem readNextFragment_error (failed : fragmentIn iter.data.length decode (range iter.data) record iter.rb = .error error) :
    ∃ after, iter.readNextFragment decode record = (.error error,after) := by
  unfold readNextFragment
  obtain refused | ⟨header,middle,entered,refused | ⟨value,bounds,rest,decoded,cut⟩⟩ := fragmentIn_error failed
  · simp only [refused]
    exact ⟨iter,rfl⟩
  · simp only [entered,refused]
    exact ⟨iter,rfl⟩
  · simp only [entered,decoded,cut]
    exact ⟨iter.take rest,rfl⟩

variable (decode) (running : iter.exhausted = false)
include running

-- At the end of a record the call goes the way that the next header decides.
theorem next_boundary (owed : iter.pending = []) (read : iter.readNextRecord = (returned,after)) :
    iter.next decode = match returned with
      | none => (none,after)
      | some (.ok ()) => after.next decode
      | some (.error error) => (some (.error error),after) := by
  rw [next,if_neg (by rw [running]; exact Bool.false_ne_true),dif_pos (owes_none owed)]
  split
  all_goals
    rename_i again
    rw [read] at again
    cases again
    rfl

theorem next_owing (owed : iter.pending = record :: others) : iter.next decode = match iter.readNextFragment decode record with
    | (.ok fragment,taken) => (some (.ok fragment),taken)
    | (.error error,failed) => (some (.error error),failed.exhaust) := by
  obtain ⟨current,counted,-⟩ := owes_some owed
  have owes : iter.fragmentsLeftInRecord ≠ 0 := by rw [counted]; exact Nat.succ_ne_zero _
  rw [next,if_neg (by rw [running]; exact Bool.false_ne_true),dif_neg owes]
  simp only [current,Option.get_some]

theorem next_follows {data : Bytes} (from_data : iter.data = data)
    (streams : RecordStream.Streams (bundleFormat data.length decode (range data)) iter.pending iter.rb fragments stop) (calls : Nat) :
    iter.nextAfter decode calls = (fragments.map Except.ok ++ (stop.map Except.error).toList)[calls]? := by
  generalize owed : iter.pending = pending at streams
  generalize unread_bytes : iter.rb = bytes at streams
  induction streams generalizing iter calls with
  | ended => exact nextAfter_stops (next_boundary decode running owed (readNextRecord_ended unread_bytes)) rfl calls
  | @entered bytes record left fragments stop unread read _ ih =>
    subst from_data unread_bytes
    have called := next_boundary decode running owed (readNextRecord_ok unread read)
    have still_running : (iter.enter record left).exhausted = false := running
    have rest := ih still_running rfl calls rfl rfl
    rw [← rest]
    cases calls <;> simp only [nextAfter,called]
  | unreadable unread refused =>
    subst from_data unread_bytes
    exact nextAfter_stops (next_boundary decode running owed (readNextRecord_error unread refused)) rfl calls
  | @yielded record bytes fragment left others fragments stop read _ ih =>
    subst from_data unread_bytes
    have called : iter.next decode = (some (.ok fragment),iter.take left) := by
      rw [next_owing decode running owed,readNextFragment_ok read]
    cases calls with
    | zero => simp only [nextAfter,called]; rfl
    | succ calls =>
      obtain ⟨current,counted,same⟩ := owes_some owed
      have owing : (iter.take left).pending = others := by
        change iter.currentRecord.elim [] (List.replicate (iter.fragmentsLeftInRecord - 1)) = others
        rw [current,counted]
        exact same.symm
      have still_running : (iter.take left).exhausted = false := running
      have rest := ih still_running rfl calls owing rfl
      simp only [nextAfter,called,rest]
      rfl
  | broken refused =>
    subst from_data unread_bytes
    obtain ⟨after,failed⟩ := readNextFragment_error refused
    have called := next_owing decode running owed
    rw [failed] at called
    exact nextAfter_stops called rfl calls

end StateFragmentIter

-- A visitor as the source calls it: what it has changed stays when it fails.
def FnMutVisitor (σ : Type) := StateRecordHeader → StateFragmentHeaderSpan → RecordStream.Step σ MarshalerError

def visitFragment (total : Nat) (visit : FnMutVisitor σ) (record_header : StateRecordHeader) :
    RecordStream.Step σ MarshalerError := fun state rb =>
  match readStateFragmentHeader total rb with
  | .ok (fragment_header,rb) => visit record_header fragment_header state rb
  | .error error => (state,.error error)

def visitRecordFragments (total : Nat) (visit : FnMutVisitor σ) : RecordStream.Step σ MarshalerError := fun state rb =>
  match readStateRecordHeader total rb with
  | .ok (record_header,rb) =>
    RecordStream.times (visitFragment total visit record_header) record_header.fragmentCount state rb
  | .error error => (state,.error error)

def visitBundleBufferFragmentsMut (bundle_buffer : Bytes) (visit : FnMutVisitor σ) (state : σ) :
    Option (σ × Option MarshalerError) :=
  RecordStream.whileUnread (visitRecordFragments bundle_buffer.length visit) bundle_buffer.length state bundle_buffer

-- Decodes the body it is given and hands it on together with both headers.
def decodingVisitor (data : Bytes) (decode : DecodeContents F) (consume : σ → StateFragmentView F → σ) : FnMutVisitor σ :=
  fun record header state rb =>
    match decodeBody data.length decode header rb with
    | .error error => (state,.error error)
    | .ok ((fragment,body_range),rb) =>
      match range data body_range rb with
      | .error error => (state,.error error)
      | .ok (body,rb) => (consume state ⟨record,header,body,body_range,fragment⟩,.ok rb)

theorem visitor_follows (data : Bytes) (decode : DecodeContents F) (consume : σ → StateFragmentView F → σ) :
    RecordStream.Follows (bundleFormat data.length decode (range data))
      (visitFragment data.length (decodingVisitor data decode consume))
      (visitRecordFragments data.length (decodingVisitor data decode consume)) consume (fun state _ => state) id where
  taken read := by
    obtain ⟨header,middle,value,bounds,rest,body,entered,decoded,cut,rfl⟩ := fragmentIn_ok.mp read
    simp only [visitFragment,decodingVisitor,entered,decoded,cut]
  broken failed := by
    obtain refused | ⟨header,middle,entered,refused | ⟨value,bounds,rest,decoded,cut⟩⟩ := fragmentIn_error failed
    · simp only [visitFragment,refused,id]
    · simp only [visitFragment,decodingVisitor,entered,refused,id]
    · simp only [visitFragment,decodingVisitor,entered,decoded,cut,id]
  entered read := by
    unfold visitRecordFragments
    rw [show readStateRecordHeader data.length _ = _ from read]
    rfl
  unreadable failed := by
    unfold visitRecordFragments
    rw [show readStateRecordHeader data.length _ = _ from failed]
    rfl

theorem advances_range (data : Bytes) (decode : DecodeContents F) :
    (bundleFormat data.length decode (range data)).Advances data.length := by
  refine advances_bundle fun cut => ?_
  obtain ⟨valid,same,_⟩ := range_ok.mp cut
  exact ⟨valid,same⟩

theorem visitor_folds {decode : DecodeContents F}
    (streams : RecordStream.Streams (bundleFormat data.length decode (range data)) [] data fragments stop)
    (consume : σ → StateFragmentView F → σ) (state : σ) :
    visitBundleBufferFragmentsMut data (decodingVisitor data decode consume) state = some (fragments.foldl consume state,stop) := by
  have ended := (visitor_follows data decode consume).loop (advances_range data decode) streams (Nat.le_refl _) state
  unfold visitBundleBufferFragmentsMut
  rw [ended]
  cases stop <;> rfl

-- A visitor that leaves its state alone when it fails.
def Visitor.fnMut (visit : Visitor σ) : FnMutVisitor σ := fun record_header fragment_header state rb =>
  match visit state record_header fragment_header rb with
  | .ok (next,rb) => (next,.ok rb)
  | .error error => (state,.error error)

theorem fragments_mirror (visit : Visitor σ) (count : Nat) (state : σ) (bytes : Bytes) :
    RecordStream.Mirrors (visitFragments total visit record_header count state bytes)
      (RecordStream.times (visitFragment total visit.fnMut record_header) count state bytes) := by
  induction count generalizing state bytes with
  | zero => exact .read
  | succ count ih =>
    unfold visitFragments
    cases entered : readStateFragmentHeader total bytes with
    | error error =>
      have stopped : visitFragment total visit.fnMut record_header state bytes = (state,.error error) := by
        simp only [visitFragment,entered]
      rw [Reader.bind_error entered,RecordStream.times_stopped stopped]
      exact .failed
    | ok pair =>
      obtain ⟨fragment_header,middle⟩ := pair
      rw [Reader.bind_ok entered]
      cases visited : visit state record_header fragment_header middle with
      | error error =>
        have stopped : visitFragment total visit.fnMut record_header state bytes = (state,.error error) := by
          simp only [visitFragment,Visitor.fnMut,entered,visited]
        rw [Reader.bind_error visited,RecordStream.times_stopped stopped]
        exact .failed
      | ok pair =>
        obtain ⟨next,left⟩ := pair
        have stepped : visitFragment total visit.fnMut record_header state bytes = (next,.ok left) := by
          simp only [visitFragment,Visitor.fnMut,entered,visited]
        rw [Reader.bind_ok visited,RecordStream.times_stepped stepped]
        exact ih next left

-- The two forms of the loop stop at the same error, and with the same state where
-- there is none.
theorem visits_mirror (visit : Visitor σ) (ended : visitBundleBufferFragments bundle_buffer visit state = some (final,stop)) :
    ∃ last, visitBundleBufferFragmentsMut bundle_buffer visit.fnMut state = some (last,stop) ∧ (stop = none → last = final) := by
  refine RecordStream.while_mirrors (fun state bytes => ?_) ended
  unfold visitRecord visitRecordFragments
  cases entered : readStateRecordHeader bundle_buffer.length bytes with
  | error error =>
    rw [Reader.bind_error entered]
    exact .failed
  | ok pair =>
    rw [Reader.bind_ok entered]
    exact fragments_mirror visit _ state _

end NwNetwork.Hub
