import NwNetwork.HubStateRecord

namespace NwNetwork.Hub
open WireReader Serialize

def StateFragment.marshal (fragment : StateFragment) : Bytes :=
  marshalVlqU32 fragment.fragmentKey ++ writeFragmentTypeInfo fragment.typeInfo ++ fragment.body

theorem keepWithinLimit_cases (writer : StateRecordWriter) (fragment : StateFragment) :
    writer.keepWithinLimit (writer.wb ++ fragment.marshal) = (.ok .skippedOverLimit,writer) ∨
      ((writer.wb ++ fragment.marshal).length ≤ maxReplicatedStateBundleBufferSize ∧
        writer.keepWithinLimit (writer.wb ++ fragment.marshal) =
          (.ok .written,⟨writer.wb ++ fragment.marshal,saturatingAdd writer.count 1⟩)) := by
  unfold StateRecordWriter.keepWithinLimit
  split
  · left
    rw [List.take_left]
  · rename_i within
    right
    exact ⟨Nat.le_of_not_lt within,rfl⟩

theorem perform_full (full : writer.count = 255) (call : FragmentCall) :
    call.perform writer = (.error (.containerOverflow 256 255),writer) := by
  have refused : writer.reserveFragmentSlot = .error (.containerOverflow 256 255) := if_pos full
  cases call with
  | fragment =>
    unfold FragmentCall.perform StateRecordWriter.writeFragmentWithContext
    dsimp only
    rw [refused]
  | raw =>
    unfold FragmentCall.perform StateRecordWriter.writeRawFragment
    dsimp only
    rw [refused]

theorem perform_reserved (room : writer.count ≠ 255) (call : FragmentCall) :
    call.perform writer = (.ok .skippedNoPayload,writer) ∨
      call.perform writer = writer.keepWithinLimit (writer.wb ++ call.stateFragment.marshal) := by
  have reserved : writer.reserveFragmentSlot = .ok () := if_neg room
  cases call with
  | fragment fragment_key type_info wrote_payload contents =>
    unfold FragmentCall.perform StateRecordWriter.writeFragmentWithContext
    dsimp only
    rw [reserved]
    dsimp only
    cases wrote_payload with
    | false => left; rw [List.append_assoc,List.append_assoc,List.take_left]; rfl
    | true => right; rw [List.append_assoc,List.append_assoc,← List.append_assoc (marshalVlqU32 _)]; rfl
  | raw fragment_key type_info body =>
    right
    unfold FragmentCall.perform StateRecordWriter.writeRawFragment
    dsimp only
    rw [reserved]
    dsimp only
    rw [List.append_assoc,List.append_assoc,← List.append_assoc (marshalVlqU32 _)]
    rfl

-- One call either keeps the fragment whole, within the limit, or keeps nothing.
theorem perform_cases (writer : StateRecordWriter) (call : FragmentCall) :
    (∃ returned, call.perform writer = (returned,writer) ∧ returned ≠ .ok .written) ∨
      (writer.count ≠ 255 ∧ (writer.wb ++ call.stateFragment.marshal).length ≤ maxReplicatedStateBundleBufferSize ∧
        call.perform writer = (.ok .written,⟨writer.wb ++ call.stateFragment.marshal,saturatingAdd writer.count 1⟩)) := by
  by_cases full : writer.count = 255
  · left
    exact ⟨_,perform_full full call,nofun⟩
  · rcases perform_reserved full call with silent | appended
    · left
      exact ⟨_,silent,nofun⟩
    · rcases keepWithinLimit_cases writer call.stateFragment with beyond | ⟨within,kept⟩
      · left
        exact ⟨_,appended.trans beyond,nofun⟩
      · right
        exact ⟨full,within,appended.trans kept⟩

theorem saturatingAdd_one (count : UInt8) (room : count ≠ 255) : (saturatingAdd count 1).toNat = count.toNat + 1 := by
  have bound := count.toNat_lt
  have below : count.toNat ≠ 255 := fun top => room (UInt8.toNat_inj.mp top)
  have one : (1 : UInt8).toNat = 1 := rfl
  unfold saturatingAdd
  rw [one,Nat.min_eq_right (by omega),UInt8.toNat_ofNat']
  omega

-- A whole record body appends the fragments that were reported written, counts
-- them, and stays within the limit from the first one on.
structure RecordBody (started : StateRecordWriter) (written : List StateFragment) (writer : StateRecordWriter) : Prop where
  bytes : writer.wb = started.wb ++ written.flatMap StateFragment.marshal
  counted : writer.count.toNat = started.count.toNat + written.length
  limited : written ≠ [] → writer.wb.length ≤ maxReplicatedStateBundleBufferSize

theorem run_body (writer : StateRecordWriter) (program : RecordProgram α) :
    RecordBody writer (reportedWritten (program.run writer).log) (program.run writer).writer := by
  induction program generalizing writer with
  | done result => exact ⟨(List.append_nil _).symm,rfl,fun nonempty => absurd rfl nonempty⟩
  | call fragment next ih =>
    unfold RecordProgram.run
    dsimp only
    rcases perform_cases writer fragment with ⟨returned,unchanged,unwritten⟩ | ⟨room,within,kept⟩
    · rw [unchanged]
      have rest := ih returned writer
      have skipped : reportedWritten ((fragment,returned) :: (RecordProgram.run writer (next returned)).log) =
          reportedWritten (RecordProgram.run writer (next returned)).log := by
        unfold reportedWritten
        apply List.filterMap_cons_none
        exact if_neg unwritten
      rw [skipped]
      exact rest
    · rw [kept]
      have rest := ih (.ok .written) ⟨writer.wb ++ fragment.stateFragment.marshal,saturatingAdd writer.count 1⟩
      have pushed : ∀ log, reportedWritten ((fragment,.ok .written) :: log) = fragment.stateFragment :: reportedWritten log := by
        intro log
        unfold reportedWritten
        apply List.filterMap_cons_some
        exact if_pos rfl
      dsimp only
      rw [pushed]
      refine ⟨?_,?_,?_⟩
      · rw [rest.bytes,List.flatMap_cons,List.append_assoc]
      · rw [rest.counted,saturatingAdd_one _ room,List.length_cons]
        omega
      · intro _
        cases later : reportedWritten
            (RecordProgram.run ⟨writer.wb ++ fragment.stateFragment.marshal,saturatingAdd writer.count 1⟩ (next (.ok .written))).log with
        | nil =>
          have same := rest.bytes
          rw [later] at same
          rw [same,List.flatMap_nil,List.append_nil]
          exact within
        | cons head tail => exact rest.limited (by rw [later]; exact List.cons_ne_nil _ _)

structure StateRecord where
  interestId : BitVec 16
  fragments : List StateFragment

def StateRecord.marshal (record : StateRecord) : Bytes :=
  marshalVlqU32 (record.interestId.setWidth 32) ++ UInt8.ofNat record.fragments.length ::
    record.fragments.flatMap StateFragment.marshal

-- The record that a call leaves behind, if it neither fails nor keeps nothing.
def keptRecord (interest_id : BitVec 16) (written : RecordWritten α) : Option StateRecord :=
  if written.result.toOption.isNone ∨ reportedWritten written.log = [] then none
  else some ⟨interest_id,reportedWritten written.log⟩

theorem patched_bytes (front body : Bytes) (count : UInt8) :
    (front ++ [0] ++ body).set front.length count = front ++ count :: body := by
  rw [List.append_assoc,List.set_append_right _ _ (Nat.le_refl _),Nat.sub_self]
  rfl

-- What one call of `write_record` does to the buffer.
structure RecordKept (wb : Bytes) (interest_id : BitVec 16) (written : RecordWritten α) : Prop where
  bytes : written.wb = wb ++ ((keptRecord interest_id written).map StateRecord.marshal).getD []
  counted : (reportedWritten written.log).length < 256
  limited : keptRecord interest_id written ≠ none → written.wb.length ≤ maxReplicatedStateBundleBufferSize

theorem record_kept (wb : Bytes) (call : RecordCall α) :
    RecordKept wb call.interestId (writeStateRecord wb call) := by
  have body := run_body ⟨wb ++ marshalVlqU32 (call.interestId.setWidth 32) ++ [0],0⟩ call.program
  unfold writeStateRecord
  dsimp only
  generalize call.program.run ⟨wb ++ marshalVlqU32 (call.interestId.setWidth 32) ++ [0],0⟩ = run at body
  have count : run.writer.count.toNat = (reportedWritten run.log).length := body.counted.trans (Nat.zero_add _)
  have none_kept : run.writer.count = 0 ↔ reportedWritten run.log = [] := by
    rw [← UInt8.toNat_inj,count]
    exact List.length_eq_zero_iff
  have patched : run.writer.wb.set (wb ++ marshalVlqU32 (call.interestId.setWidth 32)).length run.writer.count =
      wb ++ (StateRecord.mk call.interestId (reportedWritten run.log)).marshal := by
    have byte : run.writer.count = UInt8.ofNat (reportedWritten run.log).length := by rw [← count,UInt8.ofNat_toNat]
    rw [body.bytes,patched_bytes,byte,List.append_assoc]
    rfl
  have counted : (reportedWritten run.log).length < 256 := by
    rw [← count]
    exact run.writer.count.toNat_lt
  by_cases dropped : run.result.toOption.isNone = true ∨ run.writer.count = 0
  · have kept : keptRecord call.interestId ⟨run.result,(wb ++ (StateRecord.mk call.interestId (reportedWritten run.log)).marshal).take wb.length,run.log⟩ =
        none := if_pos (dropped.imp_right none_kept.mp)
    rw [if_pos dropped,patched]
    refine ⟨?_,counted,fun present => absurd kept present⟩
    rw [kept,List.take_left]
    exact (List.append_nil wb).symm
  · have kept : keptRecord call.interestId ⟨run.result,wb ++ (StateRecord.mk call.interestId (reportedWritten run.log)).marshal,run.log⟩ =
        some ⟨call.interestId,reportedWritten run.log⟩ := if_neg fun absent => dropped (absent.imp_right none_kept.mpr)
    rw [if_neg dropped,patched]
    refine ⟨by rw [kept]; rfl,counted,fun _ => ?_⟩
    have within := body.limited fun absent => dropped (.inr (none_kept.mpr absent))
    rw [← patched]
    dsimp only
    rw [List.length_set]
    exact within

structure VisitedFragment where
  interestId : BitVec 16
  fragmentCount : Nat
  fragment : StateFragment

def StateRecord.visited (record : StateRecord) : List VisitedFragment :=
  record.fragments.map fun fragment => ⟨record.interestId,record.fragments.length,fragment⟩

-- A visitor that consumes each body exactly: in a state that is ready for the
-- fragments still to come it takes the body of the next one and no more.
def ConsumesBodies (visit : Visitor σ) (ready : List VisitedFragment → σ → Prop) : Prop :=
  ∀ ⦃seen others state⦄, ready (seen :: others) state →
    ∀ (record : StateRecordHeader) (span : StateFragmentHeaderSpan) (rest : Bytes),
      record.interestId = seen.interestId → record.fragmentCount = seen.fragmentCount →
      span.fragmentKey = seen.fragment.fragmentKey → span.typeInfo = seen.fragment.typeInfo →
      ∃ next, visit state record span (seen.fragment.body ++ rest) = .ok (next,rest) ∧ ready others next

theorem type_info_back (type_info : FragmentTypeInfo) : ReadsBack writeFragmentTypeInfo readFragmentTypeInfo type_info := by
  intro rest
  unfold readFragmentTypeInfo
  cases type_info with
  | typeIndex index nonzero =>
    refine ((vlqU32_back index).bind _ rest).trans ?_
    unfold fragmentTypeInfoOf
    rw [dif_neg nonzero]
    rfl
  | rawUuid uuid =>
    unfold writeFragmentTypeInfo
    dsimp only
    rw [List.append_assoc,(vlqU32_back 0).bind]
    exact Reader.bind_ok (uuid_back uuid rest)

theorem fragment_header_back (total : Nat) (fragment : StateFragment) (rest : Bytes) :
    ∃ span, readStateFragmentHeader total (fragment.marshal ++ rest) = .ok (span,fragment.body ++ rest) ∧
      span.fragmentKey = fragment.fragmentKey ∧ span.typeInfo = fragment.typeInfo := by
  unfold readStateFragmentHeader StateFragment.marshal
  rw [List.append_assoc,List.append_assoc,Reader.bind_ok rfl,(vlqU32_back _).bind,(type_info_back _).bind,
    Reader.bind_ok rfl]
  exact ⟨_,rfl,rfl,rfl⟩

theorem fragments_visited {visit : Visitor σ} (consumes : ConsumesBodies visit ready) (total : Nat)
    (record_header : StateRecordHeader) (fragments : List StateFragment) (others : List VisitedFragment)
    (start : ready (fragments.map (fun fragment => ⟨record_header.interestId,record_header.fragmentCount,fragment⟩) ++ others) state)
    (rest : Bytes) :
    ∃ next, visitFragments total visit record_header fragments.length state
        (fragments.flatMap StateFragment.marshal ++ rest) = .ok (next,rest) ∧ ready others next := by
  induction fragments generalizing state with
  | nil => exact ⟨state,rfl,start⟩
  | cons fragment fragments ih =>
    obtain ⟨span,read,key,type_info⟩ := fragment_header_back total fragment (fragments.flatMap StateFragment.marshal ++ rest)
    obtain ⟨next,visited,coming⟩ := consumes start record_header span (fragments.flatMap StateFragment.marshal ++ rest)
      rfl rfl key type_info
    obtain ⟨final,reads,finished⟩ := ih coming
    refine ⟨final,?_,finished⟩
    rw [List.flatMap_cons,List.append_assoc,List.length_cons]
    exact (Reader.bind_ok read).trans ((Reader.bind_ok visited).trans reads)

theorem record_header_back (total : Nat) (interest_id : BitVec 16) (fragments : List StateFragment)
    (counted : fragments.length < 256) (rest : Bytes) :
    ∃ record_header : StateRecordHeader,
      readStateRecordHeader total ((StateRecord.mk interest_id fragments).marshal ++ rest) =
        .ok (record_header,fragments.flatMap StateFragment.marshal ++ rest) ∧
      record_header.interestId = interest_id ∧ record_header.fragmentCount = fragments.length := by
  have same : (interest_id.setWidth 32).toNat = interest_id.toNat := by
    rw [BitVec.toNat_setWidth]
    have := interest_id.isLt
    omega
  have checked : checkInterestId (interest_id.setWidth 32) = pure () := by
    unfold checkInterestId
    rw [same,if_neg (by have := interest_id.isLt; omega)]
  have narrow : (interest_id.setWidth 32).setWidth 16 = interest_id := by
    apply BitVec.eq_of_toNat_eq
    rw [BitVec.toNat_setWidth,same]
    exact Nat.mod_eq_of_lt interest_id.isLt
  have count : (UInt8.ofNat fragments.length).toNat = fragments.length := by
    rw [UInt8.toNat_ofNat',Nat.mod_eq_of_lt counted]
  unfold readStateRecordHeader StateRecord.marshal
  rw [List.append_assoc,Reader.bind_ok rfl,(vlqU32_back _).bind,checked,Reader.bind_ok (Reader.pure_run _ _),
    List.cons_append,Reader.bind_ok (readU8_cons _ _),Reader.bind_ok rfl]
  exact ⟨_,rfl,narrow,count⟩

theorem record_visited {visit : Visitor σ} {record : StateRecord} (consumes : ConsumesBodies visit ready) (total : Nat)
    (counted : record.fragments.length < 256) (start : ready (record.visited ++ others) state) (rest : Bytes) :
    ∃ next, visitRecord total visit state (record.marshal ++ rest) = .ok (next,rest) ∧ ready others next := by
  obtain ⟨interest_id,fragments⟩ := record
  obtain ⟨record_header,read,same_id,same_count⟩ := record_header_back total interest_id fragments counted rest
  have coming : ready (fragments.map (fun fragment =>
      ⟨record_header.interestId,record_header.fragmentCount,fragment⟩) ++ others) state := by
    rw [same_id,same_count]
    exact start
  obtain ⟨next,visited,finished⟩ := fragments_visited consumes total record_header fragments others coming rest
  refine ⟨next,(Reader.bind_ok read).trans ?_,finished⟩
  rw [same_count]
  exact visited

theorem record_ne_nil (record : StateRecord) : record.marshal ≠ [] := fun empty =>
  List.cons_ne_nil _ _ (List.append_eq_nil_iff.mp empty).2

theorem records_visited {visit : Visitor σ} (consumes : ConsumesBodies visit ready) (records : List StateRecord)
    (counted : ∀ record ∈ records, record.fragments.length < 256)
    (start : ready (records.flatMap StateRecord.visited) state) :
    ∃ final, visitBundleBufferFragments (records.flatMap StateRecord.marshal) visit state = some (final,none) ∧
      ready [] final := by
  let coming := fun (others : List StateRecord) (state : σ) =>
    (∀ record ∈ others, record.fragments.length < 256) ∧ ready (others.flatMap StateRecord.visited) state
  have taken : ∀ {record others state}, coming (record :: others) state → ∀ rest, ∃ next,
      visitRecord (records.flatMap StateRecord.marshal).length visit state (record.marshal ++ rest) = .ok (next,rest) ∧
        coming others next := by
    intro record others state come rest
    obtain ⟨next,visited,left⟩ := record_visited consumes _ (come.1 record List.mem_cons_self) come.2 rest
    exact ⟨next,visited,fun other member => come.1 other (List.mem_cons_of_mem _ member),left⟩
  obtain ⟨final,ended,_,finished⟩ := loop_reads_all taken records (fun record _ => record_ne_nil record) ⟨counted,start⟩
  exact ⟨final,ended,finished⟩

def keptRecords : List (RecordCall α) → List (RecordWritten α) → List StateRecord
  | call :: calls,written :: others => (keptRecord call.interestId written).toList ++ keptRecords calls others
  | _,_ => []

theorem kept_counted (kept : RecordKept wb interest_id written)
    (present : keptRecord interest_id written = some record) : record.fragments.length < 256 := by
  unfold keptRecord at present
  split at present
  · cases present
  · cases present
    exact kept.counted

theorem writeRecords_kept (bundle : ReplicatedStateBundle) (calls : List (RecordCall α))
    (within : bundle.bundleBuffer.length ≤ maxReplicatedStateBundleBufferSize) :
    (bundle.writeRecords calls).2.bundleBuffer =
        bundle.bundleBuffer ++ (keptRecords calls (bundle.writeRecords calls).1).flatMap StateRecord.marshal ∧
      (bundle.writeRecords calls).2.bundleBuffer.length ≤ maxReplicatedStateBundleBufferSize ∧
      ∀ record ∈ keptRecords calls (bundle.writeRecords calls).1, record.fragments.length < 256 := by
  induction calls generalizing bundle with
  | nil => exact ⟨(List.append_nil _).symm,within,nofun⟩
  | cons call calls ih =>
    have kept := record_kept bundle.bundleBuffer call
    have limited : (bundle.writeRecord call).2.bundleBuffer.length ≤ maxReplicatedStateBundleBufferSize := by
      cases present : keptRecord call.interestId (writeStateRecord bundle.bundleBuffer call) with
      | none =>
        have same := kept.bytes
        rw [present] at same
        change (writeStateRecord bundle.bundleBuffer call).wb.length ≤ _
        rw [same]
        exact Nat.le_trans (by simp) within
      | some record => exact kept.limited (by rw [present]; exact Option.some_ne_none _)
    obtain ⟨bytes,limit,counted⟩ := ih (bundle.writeRecord call).2 limited
    unfold ReplicatedStateBundle.writeRecords keptRecords
    dsimp only
    refine ⟨?_,limit,?_⟩
    · rw [bytes,List.flatMap_append,← List.append_assoc]
      congr 1
      refine kept.bytes.trans ?_
      change _ = bundle.bundleBuffer ++ (keptRecord call.interestId (writeStateRecord bundle.bundleBuffer call)).toList.flatMap _
      cases keptRecord call.interestId (writeStateRecord bundle.bundleBuffer call) with
      | none => rfl
      | some record => simp
    · intro record member
      rcases List.mem_append.mp member with first | later
      · exact kept_counted kept (Option.mem_toList.mp first)
      · exact counted record later

-- What any calls leave behind is the old buffer and bytes that are visited as
-- exactly the fragments that were reported written in the records that were kept.
theorem bundle_record_stream (bundle : ReplicatedStateBundle) (calls : List (RecordCall α))
    (within : bundle.bundleBuffer.length ≤ maxReplicatedStateBundleBufferSize) :
    (∃ appended, (bundle.writeRecords calls).2.bundleBuffer = bundle.bundleBuffer ++ appended ∧
      ∀ (σ : Type) (visit : Visitor σ) (ready : List VisitedFragment → σ → Prop) (state : σ),
        ConsumesBodies visit ready →
        ready ((keptRecords calls (bundle.writeRecords calls).1).flatMap StateRecord.visited) state →
        ∃ final, visitBundleBufferFragments appended visit state = some (final,none) ∧ ready [] final) ∧
    (bundle.writeRecords calls).2.bundleBuffer.length ≤ maxReplicatedStateBundleBufferSize ∧
    ∀ (before : ReplicatedStateBundle) (call : RecordCall α),
      (before.writeRecord call).1.result.toOption.isNone ∨ reportedWritten (before.writeRecord call).1.log = [] →
      (before.writeRecord call).2 = before := by
  obtain ⟨bytes,limit,counted⟩ := writeRecords_kept bundle calls within
  refine ⟨⟨_,bytes,?_⟩,limit,?_⟩
  · intro σ visit ready state consumes start
    exact records_visited consumes _ counted start
  · intro before call dropped
    have kept := (record_kept before.bundleBuffer call).bytes
    have none_kept : keptRecord call.interestId (writeStateRecord before.bundleBuffer call) = none := if_pos dropped
    rw [none_kept] at kept
    have same : (before.writeRecord call).2 = ⟨(writeStateRecord before.bundleBuffer call).wb⟩ := rfl
    rw [same,kept]
    exact congrArg ReplicatedStateBundle.mk (List.append_nil _)

-- Takes the bodies of the fragments it expects, one after the other.
def takeExpected : Visitor (List VisitedFragment) := fun expected _ _ =>
  match expected with
  | [] => Reader.fail (.bufferUnderrun 0 0)
  | seen :: others => do
    let _ ← readBytes seen.fragment.body.length
    pure others

def rawFragment (key body : Nat) : FragmentCall := .raw (BitVec.ofNat 32 key) (.typeIndex 8 (by decide)) [UInt8.ofNat body]

-- The first record keeps one fragment of two, the second fails, the third keeps one.
def threeRecords : List (RecordCall Unit) :=
  [⟨5,.call (rawFragment 1 7) fun _ => .call (.fragment 2 (.typeIndex 8 (by decide)) false [9]) fun _ => .done (.ok ())⟩,
    ⟨6,.call (rawFragment 3 7) fun _ => .done (.error (.containerOverflow 1 0))⟩,
    ⟨300,.call (rawFragment 4 8) fun _ => .done (.ok ())⟩]

theorem bundle_record_stream_three :
    ∃ appended, ((ReplicatedStateBundle.mk [1]).writeRecords threeRecords).2.bundleBuffer = [1] ++ appended ∧
      visitBundleBufferFragments appended takeExpected
        [⟨5,1,(rawFragment 1 7).stateFragment⟩,⟨300,1,(rawFragment 4 8).stateFragment⟩] = some ([],none) := by
  obtain ⟨⟨appended,bytes,visited⟩,_⟩ := bundle_record_stream ⟨[1]⟩ threeRecords (by decide)
  have consumes : ConsumesBodies takeExpected fun coming expected => expected = coming := by
    intro seen others state same record span rest _ _ _ _
    rw [same]
    exact ⟨others,Reader.bind_ok (readBytes_append _ _),rfl⟩
  obtain ⟨final,ended,done⟩ := visited _ takeExpected _ _ consumes rfl
  rw [done] at ended
  exact ⟨appended,bytes,ended⟩

end NwNetwork.Hub
