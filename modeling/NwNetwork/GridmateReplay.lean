import NwNetwork.HubFragmentReaders
import NwNetwork.OrderedMap

namespace NwNetwork.Gridmate
open WireReader Serialize Hub

structure TypeKey where
  path : String
  typeIndex : Option (BitVec 32)
  name : String
  deriving DecidableEq

structure TypeTraffic where
  count : Nat
  bytes : Nat
  decoded : Nat
  errors : Nat
  deriving DecidableEq

namespace TypeTraffic

def empty : TypeTraffic := ⟨0,0,0,0⟩

def observe (traffic : TypeTraffic) (bytes : Nat) : TypeTraffic :=
  {traffic with count := traffic.count + 1, bytes := traffic.bytes + bytes}

end TypeTraffic

-- The counters that the fragments of a bundle change.
structure ReplaySummary where
  stateFragments : Nat
  stateFragmentIterErrors : Nat
  stateFragmentDecodeErrors : Nat
  stateTypes : List (TypeKey × TypeTraffic)
  stateFragmentErrors : List (String × Nat)
  deriving DecidableEq

def isFragmentDecodeError : MarshalerError → Bool
  | .unknownTypeIndex _ | .unknownClassUuid _ => true
  | _ => false

namespace ReplaySummary

def recordStateFragmentError (stats : ReplaySummary) (error : MarshalerError) : ReplaySummary :=
  let counted := if isFragmentDecodeError error then {stats with stateFragmentDecodeErrors := stats.stateFragmentDecodeErrors + 1}
    else {stats with stateFragmentIterErrors := stats.stateFragmentIterErrors + 1}
  let seen := (OrderedMap.find error.text stats.stateFragmentErrors).getD 0
  {counted with stateFragmentErrors := OrderedMap.put error.text (seen + 1) stats.stateFragmentErrors}

-- `type_name` looks the type info up in the tables of registered types.
def observeFragment (type_name : FragmentTypeInfo → Option (BitVec 32) × String) (stats : ReplaySummary)
    (fragment : StateFragmentView F) : ReplaySummary :=
  let (type_index,name) := type_name fragment.header.typeInfo
  let key : TypeKey := ⟨"state",type_index,name⟩
  let seen := (OrderedMap.find key stats.stateTypes).getD .empty
  let observed := seen.observe fragment.body.length
  {stats with
    stateFragments := stats.stateFragments + 1
    stateTypes := OrderedMap.put key {observed with decoded := observed.decoded + 1} stats.stateTypes}

end ReplaySummary

-- What the loop does with a fragment it has decoded and with the error that ends it.
structure Replay (σ F : Type) where
  observe : σ → StateFragmentView F → σ
  recordError : σ → MarshalerError → σ

def ReplaySummary.replay (type_name : FragmentTypeInfo → Option (BitVec 32) × String) : Replay ReplaySummary F where
  observe := observeFragment type_name
  recordError := recordStateFragmentError

def getRange (data : Bytes) (bounds : BodyRange) : Option Bytes :=
  if bounds.start ≤ bounds.stop ∧ bounds.stop ≤ data.length then some (bytesIn data bounds) else none

section
variable (replay : Replay σ F) (decode : DecodeContents F) (data : Bytes)

-- The second component counts the fragments; every error leaves the loops.
def replayFragment (record : StateRecordHeader) : RecordStream.Step (σ × Nat) Unit := fun (stats,fragment_count) rb =>
  match readStateFragmentHeader data.length rb with
  | .error error => ((replay.recordError stats error,fragment_count),.error ())
  | .ok (header,rb) =>
    match decodeBody data.length decode header rb with
    | .error error => ((replay.recordError stats error,fragment_count),.error ())
    | .ok ((fragment,body_range),rb) =>
      match getRange data body_range with
      | none =>
        let error := .truncatedPayload (body_range.stop - body_range.start) (data.length - body_range.start)
        ((replay.recordError stats error,fragment_count),.error ())
      | some body => ((replay.observe stats ⟨record,header,body,body_range,fragment⟩,fragment_count + 1),.ok rb)

def replayRecord : RecordStream.Step (σ × Nat) Unit := fun (stats,fragment_count) rb =>
  match readStateRecordHeader data.length rb with
  | .error error => ((replay.recordError stats error,fragment_count),.error ())
  | .ok (record,rb) => RecordStream.times (replayFragment replay decode data record) record.fragmentCount (stats,fragment_count) rb

def summarizeStateFragmentsFromBuffer (stats : σ) : Option (σ × Nat) :=
  (RecordStream.whileUnread (replayRecord replay decode data) data.length (stats,0) data).map Prod.fst

end

-- The body as the replay loop cuts it out.
def bodySlice (data : Bytes) (bounds : BodyRange) : Read Bytes := fun rb =>
  match getRange data bounds with
  | some body => .ok (body,rb)
  | none => .error (.truncatedPayload (bounds.stop - bounds.start) (data.length - bounds.start))

theorem getRange_valid (valid : bounds.Valid data.length) : getRange data bounds = some (bytesIn data bounds) := if_pos valid

theorem getRange_invalid (invalid : ¬ bounds.Valid data.length) : getRange data bounds = none := if_neg invalid

theorem bodySlice_ok : bodySlice data bounds bytes = .ok (body,left) ↔
    bounds.Valid data.length ∧ left = bytes ∧ body = bytesIn data bounds := by
  unfold bodySlice
  by_cases valid : bounds.Valid data.length
  · rw [getRange_valid valid]
    simp only [Except.ok.injEq,Prod.mk.injEq]
    exact ⟨fun ⟨cut,same⟩ => ⟨valid,same.symm,cut.symm⟩,fun ⟨_,same,cut⟩ => ⟨cut.symm,same.symm⟩⟩
  · rw [getRange_invalid valid]
    exact ⟨nofun,fun ⟨present,_⟩ => absurd present valid⟩

theorem bodySlice_invalid (invalid : ¬ bounds.Valid data.length) : bodySlice data bounds bytes =
    .error (.truncatedPayload (bounds.stop - bounds.start) (data.length - bounds.start)) := by
  unfold bodySlice
  rw [getRange_invalid invalid]

variable {F σ : Type}

theorem replay_follows (replay : Replay σ F) (decode : DecodeContents F) (data : Bytes) :
    RecordStream.Follows (bundleFormat data.length decode (bodySlice data)) (replayFragment replay decode data)
      (replayRecord replay decode data) (fun (stats,count) fragment => (replay.observe stats fragment,count + 1))
      (fun (stats,count) error => (replay.recordError stats error,count)) (fun _ => ()) where
  taken read := by
    obtain ⟨header,middle,value,bounds,rest,body,entered,decoded,cut,rfl⟩ := fragmentIn_ok.mp read
    unfold bodySlice at cut
    split at cut
    · rename_i sliced
      cases cut
      simp only [replayFragment,entered,decoded,sliced]
    · cases cut
  broken failed := by
    obtain refused | ⟨header,middle,entered,refused | ⟨value,bounds,rest,decoded,cut⟩⟩ := fragmentIn_error failed
    · simp only [replayFragment,refused]
    · simp only [replayFragment,entered,refused]
    · unfold bodySlice at cut
      split at cut
      · cases cut
      · rename_i sliced
        cases cut
        simp only [replayFragment,entered,decoded,sliced]
  entered read := by
    unfold replayRecord
    rw [show readStateRecordHeader data.length _ = _ from read]
    rfl
  unreadable failed := by
    unfold replayRecord
    rw [show readStateRecordHeader data.length _ = _ from failed]

theorem advances_slice (data : Bytes) (decode : DecodeContents F) :
    (bundleFormat data.length decode (bodySlice data)).Advances data.length := by
  refine advances_bundle fun cut => ?_
  obtain ⟨valid,same,_⟩ := bodySlice_ok.mp cut
  exact ⟨valid,same⟩

-- The two ways to cut a body out accept the same ranges. They name a range that is
-- not in the buffer differently, which takes a decoder that moves the cursor back.
theorem slices_agree {data : Bytes} {decode : DecodeContents F}
    (streams : RecordStream.Streams (bundleFormat data.length decode (range data)) [] data fragments stop) :
    ∃ recorded, RecordStream.Streams (bundleFormat data.length decode (bodySlice data)) [] data fragments recorded ∧
      Option.Rel (fun error other => (∀ type_info, Keeps (decode type_info)) → error = other) stop recorded := by
  refine streams.transfer (fun _ _ => rfl) (fun read => ?_) ?_
  · obtain ⟨header,middle,value,bounds,rest,body,entered,decoded,cut,same⟩ := fragmentIn_ok.mp read
    exact fragmentIn_ok.mpr ⟨header,middle,value,bounds,rest,body,entered,decoded,bodySlice_ok.mpr (range_ok.mp cut),same⟩
  · intro record bytes error failed
    obtain refused | ⟨header,middle,entered,refused | ⟨value,bounds,rest,decoded,cut⟩⟩ := fragmentIn_error failed
    · exact ⟨error,Reader.bind_error refused,fun _ => rfl⟩
    · refine ⟨error,?_,fun _ => rfl⟩
      unfold fragmentIn
      rw [Reader.bind_ok entered]
      exact Reader.bind_error refused
    · have invalid := range_error cut
      have refused : fragmentIn data.length decode (bodySlice data) record bytes =
          .error (.truncatedPayload (bounds.stop - bounds.start) (data.length - bounds.start)) := by
        unfold fragmentIn
        rw [Reader.bind_ok entered,Reader.bind_ok decoded]
        exact Reader.bind_error (bodySlice_invalid invalid)
      exact ⟨_,refused,fun forward => absurd (forward_valid (forward _) decoded) invalid⟩

theorem fold_counts (observe : σ → StateFragmentView F → σ) (fragments : List (StateFragmentView F)) (stats : σ) (count : Nat) :
    fragments.foldl (fun (stats,count) fragment => (observe stats fragment,count + 1)) (stats,count) =
      (fragments.foldl observe stats,count + fragments.length) := by
  induction fragments generalizing stats count with
  | nil => rfl
  | cons fragment fragments ih =>
    rw [List.foldl_cons,ih,List.foldl_cons,List.length_cons,Nat.add_assoc,Nat.add_comm 1]

theorem replay_folds {data : Bytes} {decode : DecodeContents F}
    (streams : RecordStream.Streams (bundleFormat data.length decode (bodySlice data)) [] data fragments recorded)
    (replay : Replay σ F) (stats : σ) : summarizeStateFragmentsFromBuffer replay decode data stats =
      some (RecordStream.outcome replay.observe replay.recordError stats fragments recorded,fragments.length) := by
  have ended := (replay_follows replay decode data).loop (advances_slice data decode) streams (Nat.le_refl _) (stats,0)
  unfold summarizeStateFragmentsFromBuffer
  rw [ended]
  have counted := fold_counts replay.observe fragments stats 0
  rw [Nat.zero_add] at counted
  cases recorded with
  | none => exact congrArg some counted
  | some error => exact congrArg (fun counts => some (replay.recordError counts.1 error,counts.2)) counted

namespace ReplaySummary

def fragmentErrors (stats : ReplaySummary) : Nat := stats.stateFragmentIterErrors + stats.stateFragmentDecodeErrors

theorem recorded_counts (stats : ReplaySummary) (error : MarshalerError) :
    (stats.recordStateFragmentError error).stateFragments = stats.stateFragments ∧
      (stats.recordStateFragmentError error).fragmentErrors = stats.fragmentErrors + 1 := by
  unfold recordStateFragmentError fragmentErrors
  split
  · exact ⟨rfl,rfl⟩
  · exact ⟨rfl,Nat.add_right_comm _ 1 _⟩

theorem observed_counts (type_name : FragmentTypeInfo → Option (BitVec 32) × String) (stats : ReplaySummary)
    (fragments : List (StateFragmentView F)) :
    (fragments.foldl (observeFragment type_name) stats).stateFragments = stats.stateFragments + fragments.length ∧
      (fragments.foldl (observeFragment type_name) stats).fragmentErrors = stats.fragmentErrors := by
  induction fragments generalizing stats with
  | nil => exact ⟨rfl,rfl⟩
  | cons fragment fragments ih =>
    obtain ⟨counted,errors⟩ := ih (observeFragment type_name stats fragment)
    refine ⟨?_,errors⟩
    rw [List.foldl_cons,counted,List.length_cons,Nat.add_comm fragments.length,← Nat.add_assoc]
    rfl

-- The statistics of a bundle: every fragment is counted, and one error at most.
theorem summary_counts {data : Bytes} {decode : DecodeContents F}
    (streams : RecordStream.Streams (bundleFormat data.length decode (bodySlice data)) [] data fragments recorded)
    (type_name : FragmentTypeInfo → Option (BitVec 32) × String) (stats : ReplaySummary) :
    ∃ after, summarizeStateFragmentsFromBuffer (replay type_name) decode data stats = some (after,fragments.length) ∧
      after.stateFragments = stats.stateFragments + fragments.length ∧
      after.fragmentErrors = stats.fragmentErrors + recorded.toList.length := by
  refine ⟨_,replay_folds streams (replay type_name) stats,?_⟩
  obtain ⟨counted,errors⟩ := observed_counts type_name stats fragments
  cases recorded with
  | none => exact ⟨counted,errors⟩
  | some error =>
    obtain ⟨same,more⟩ := recorded_counts (fragments.foldl (observeFragment type_name) stats) error
    exact ⟨same.trans counted,more.trans (congrArg (· + 1) errors)⟩

end ReplaySummary

theorem fragment_readers_agree (bundle_buffer : Bytes) (decode : DecodeContents F) :
    ∃ (fragments : List (StateFragmentView F)) (stop recorded : Option MarshalerError),
      (∀ calls, (StateFragmentIter.new bundle_buffer).nextAfter decode calls =
        (fragments.map .ok ++ (stop.map .error).toList)[calls]?) ∧
      (∀ {σ : Type} (consume : σ → StateFragmentView F → σ) (state : σ),
        visitBundleBufferFragmentsMut bundle_buffer (decodingVisitor bundle_buffer decode consume) state =
          some (fragments.foldl consume state,stop)) ∧
      (∀ {σ : Type} (replay : Replay σ F) (stats : σ),
        summarizeStateFragmentsFromBuffer replay decode bundle_buffer stats =
          some (RecordStream.outcome replay.observe replay.recordError stats fragments recorded,fragments.length)) ∧
      recorded.isSome = stop.isSome ∧ ((∀ type_info, Keeps (decode type_info)) → recorded = stop) := by
  obtain ⟨fragments,stop,streams⟩ := RecordStream.streams_of (advances_range bundle_buffer decode) [] (Nat.le_refl _)
  obtain ⟨recorded,sliced,linked⟩ := slices_agree streams
  refine ⟨fragments,stop,recorded,StateFragmentIter.next_follows decode rfl rfl streams,visitor_folds streams,
    replay_folds sliced,?_,fun forward => ?_⟩
  · cases linked <;> rfl
  · cases linked with
    | none => rfl
    | some same => exact congrArg some (same forward).symm

end NwNetwork.Gridmate
