import NwNetwork.ContainerReplay
import NwNetwork.LiveMask
import NwNetwork.SinglePrecision

namespace NwNetwork.Serialize
open WireReader Hub LiveMask

structure ContainerFlags where
  initializeChange : Bool
  pendingDeltaChanges : Bool
  defaultValue : Bool
  newNetworkData : Bool
  deriving DecidableEq, Repr

namespace ContainerFlags

def default : ContainerFlags := ⟨true,false,false,false⟩
def delta : ContainerFlags := ⟨false,true,false,false⟩

end ContainerFlags

def fixedJournalSize : Nat := 10

structure Journal (K V : Type) where
  sets : List (ChangeSet K V)
  fits : sets.length ≤ fixedJournalSize

namespace Journal
variable {K V : Type}

def empty : Journal K V := ⟨[],Nat.zero_le _⟩

-- A full journal loses its oldest change set.
def push (journal : Journal K V) (change_set : ChangeSet K V) : Journal K V :=
  if full : journal.sets.length = fixedJournalSize then
    ⟨journal.sets.tail ++ [change_set],by
      rw [List.length_append,List.length_tail,full]
      exact Nat.le_refl 10⟩
  else
    ⟨journal.sets ++ [change_set],by
      rw [List.length_append]
      exact Nat.lt_of_le_of_ne journal.fits full⟩

def endSequence (journal : Journal K V) : SequenceNumber :=
  (journal.sets.getLast?.map ChangeSet.sequence).getD .invalid

end Journal

structure ReplicatedContainer (storage : ContainerStorage K V) where
  lastModified : SequenceNumber
  lastModifiedMarshalFull : SequenceNumber
  values : storage.Values
  currentChanges : List (Change K V)
  journal : Journal K V
  flags : ContainerFlags
  seqOfLastProcessedChange : SequenceNumber

-- `usize_to_f32(changes) > usize_to_f32(values) * 0.8`, with 13421773 / 2^24 for 0.8.
def inefficient (changes values : Nat) : Bool :=
  decide (SinglePrecision.round (SinglePrecision.round values * 13421773) < SinglePrecision.round changes * 2^24)

def vlqTwoByteChangeLimit : Nat := 2^14

-- No count of 2^32 and more is written: the source stops there.
def marshalWireCount (len : Nat) : Option Bytes :=
  if len < 2^32 then some (marshalVlqU32 (BitVec.ofNat 32 len)) else none

def checkCount (count capacity : Nat) : Read Unit :=
  if capacity < count then Reader.fail (.containerOverflow count capacity) else pure ()

namespace ReplicatedContainer
variable {K V : Type} {storage : ContainerStorage K V}

def default : ReplicatedContainer storage :=
  ⟨.invalid,.invalid,storage.empty,[],.empty,.default,.invalid⟩

def new (last_modified : SequenceNumber) (values : storage.Values) : ReplicatedContainer storage :=
  ⟨last_modified,.invalid,values,[],.empty,.default,.invalid⟩

def isDelta (container : ReplicatedContainer storage) : Bool := !container.currentChanges.isEmpty

def hasValue (container : ReplicatedContainer storage) : Bool :=
  container.lastModified.isValid || container.flags.defaultValue

def isDirty (container : ReplicatedContainer storage) (baseline : SequenceNumber) : Bool :=
  baseline.less container.lastModified

def valuesWithCurrentChanges (container : ReplicatedContainer storage) : storage.Values :=
  storage.applyChanges container.values container.currentChanges

def pushJournal (container : ReplicatedContainer storage) (change_set : ChangeSet K V) : ReplicatedContainer storage :=
  {container with journal := container.journal.push change_set}

def clearCurrentChanges (container : ReplicatedContainer storage) : ReplicatedContainer storage :=
  {container with currentChanges := [],flags := {container.flags with initializeChange := false}}

def clearAllChangeSets (container : ReplicatedContainer storage) : ReplicatedContainer storage :=
  {container with journal := .empty}.clearCurrentChanges

def pushInitializeChange (container : ReplicatedContainer storage) : ReplicatedContainer storage :=
  {container with
    lastModified := .validNonSequence
    currentChanges := if container.flags.initializeChange then container.currentChanges else []
    flags := {container.flags with initializeChange := true,pendingDeltaChanges := false,defaultValue := false}}

def pushChange (container : ReplicatedContainer storage) (change : Change K V) : ReplicatedContainer storage :=
  let touched := {container with
    lastModified := .validNonSequence
    flags := {container.flags with defaultValue := false}}
  let pushed :=
    if touched.flags.initializeChange then touched
    else if storage.len touched.values < touched.currentChanges.length then touched.pushInitializeChange
    else {touched with currentChanges := touched.currentChanges ++ [change]}
  {pushed with flags := {pushed.flags with pendingDeltaChanges := false}}

-- `push_add`, `push_update` and `push_remove`: the values change at once, and the
-- change is recorded without its value.
def pushEdit (container : ReplicatedContainer storage) (edit : Edit K V) : ReplicatedContainer storage :=
  {container with values := storage.applyChange container.values edit.applied}.pushChange edit.recorded

def pushAdd (container : ReplicatedContainer storage) (key : K) (value : V) : ReplicatedContainer storage :=
  container.pushEdit (.add key value)

def pushUpdate (container : ReplicatedContainer storage) (key : K) (value : V) : ReplicatedContainer storage :=
  container.pushEdit (.update key value)

def pushRemove (container : ReplicatedContainer storage) (key : K) : ReplicatedContainer storage :=
  container.pushEdit (.remove key)

def clientUpdateSequenceOfLastProcessedChange (container : ReplicatedContainer storage) (sequence : SequenceNumber) :
    ReplicatedContainer storage :=
  if container.seqOfLastProcessedChange.less sequence then {container with seqOfLastProcessedChange := sequence}
  else container

def copyContainerFrom (container incoming : ReplicatedContainer storage) (seq_of_last_processed_change : SequenceNumber) :
    ReplicatedContainer storage :=
  {container with values := incoming.values,seqOfLastProcessedChange := seq_of_last_processed_change}

def applyChangeSet (container : ReplicatedContainer storage) (sequence : SequenceNumber) (changes : List (Change K V)) :
    ReplicatedContainer storage :=
  {container with values := storage.applyChanges container.values changes}.pushJournal ⟨sequence,changes⟩

def mergeChangeSets (container incoming : ReplicatedContainer storage) (sequence : SequenceNumber) :
    ReplicatedContainer storage :=
  let end_sequence := container.journal.endSequence
  let merged := incoming.journal.sets.foldl (fun container change_set =>
    if end_sequence.less change_set.sequence then container.applyChangeSet change_set.sequence change_set.changes
    else container) container
  if incoming.currentChanges.isEmpty then merged else merged.applyChangeSet sequence incoming.currentChanges

-- The change sets newer than the baseline and the changes of no change set yet.
def changesSince (container : ReplicatedContainer storage) (baseline : SequenceNumber) : List (Change K V) :=
  (container.journal.sets.filter fun change_set => baseline.less change_set.sequence).flatMap ChangeSet.changes ++
    container.currentChanges

def summarizeChanges (container : ReplicatedContainer storage) (baseline : SequenceNumber) : List (Change K V) :=
  if container.flags.initializeChange then []
  else
    let changes := (container.changesSince baseline).map (storage.populateChangeValue container.values)
    if !changes.isEmpty && inefficient changes.length (storage.len container.values) then [] else changes

-- What a snapshot and a change list are decoded to.
def decodedFull (last_modified_marshal_full : SequenceNumber) (values : storage.Values) : ReplicatedContainer storage :=
  pushInitializeChange {(default : ReplicatedContainer storage) with
    lastModifiedMarshalFull := last_modified_marshal_full
    values := values
    seqOfLastProcessedChange := last_modified_marshal_full
    flags := {ContainerFlags.default with newNetworkData := true}}

def decodedChanges (current_changes : List (Change K V)) : ReplicatedContainer storage :=
  {(default : ReplicatedContainer storage) with
    lastModified := .validNonSequence
    currentChanges := current_changes
    flags := {ContainerFlags.delta with newNetworkData := true}}

section Wire
variable (key_codec : Codec MarshalerError K) (value_codec : Codec MarshalerError V) [Inhabited V]

def marshalFull (container : ReplicatedContainer storage) : Option Bytes := do
  let count ← marshalWireCount (storage.len container.values)
  pure (marshalVlqU32 0 ++ container.lastModified.marshal ++ count ++
    storage.marshalEntries key_codec value_codec container.values)

def marshalChange (container : ReplicatedContainer storage) (previous_sequence : SequenceNumber) (change : Change K V)
    (live : Bool) : Bytes × SequenceNumber :=
  let repeated := change.sequence.sameAs previous_sequence
  let value := (change.value.or (storage.changeValue container.values change.key)).getD Inhabited.default
  (key_codec.write change.key ++
      (if repeated then SequenceNumber.marshal .validNonSequence else change.sequence.marshal) ++
      (if live then value_codec.write value else []),
    if repeated then previous_sequence else change.sequence)

def marshalChanges (container : ReplicatedContainer storage) (changes : List (Change K V)) : Option Bytes := do
  let count ← marshalWireCount changes.length
  pure (count ++ writeLiveMaskBatches Change.isLive (container.marshalChange key_codec value_codec) .invalid changes)

def marshalSince (container : ReplicatedContainer storage) (baseline : SequenceNumber) : Option Bytes :=
  if baseline.isValid then
    let changes := container.summarizeChanges baseline
    if changes.isEmpty || vlqTwoByteChangeLimit ≤ changes.length then container.marshalFull key_codec value_codec
    else container.marshalChanges key_codec value_codec changes
  else container.marshalFull key_codec value_codec

def marshal (container : ReplicatedContainer storage) : Option Bytes :=
  if container.currentChanges.isEmpty then container.marshalFull key_codec value_codec
  else container.marshalChanges key_codec value_codec container.currentChanges

def unmarshalChange (previous_sequence : SequenceNumber) (live : Bool) : Read (Change K V × SequenceNumber) := do
  let key ← key_codec.read
  let raw_sequence ← SequenceNumber.unmarshal
  let repeated := raw_sequence.sameAs .validNonSequence
  let sequence := if repeated then previous_sequence else raw_sequence
  let value ← (if live then do
    let value ← value_codec.read
    pure (some value)
  else pure none)
  pure (.delta key value sequence,sequence)

def unmarshalFull (cap : Nat) : Read (ReplicatedContainer storage) := do
  let last_modified_marshal_full ← SequenceNumber.unmarshal
  let count ← unmarshalVlqU32
  checkCount count.toNat cap
  let values ← storage.unmarshalEntries key_codec value_codec count.toNat
  pure (decodedFull last_modified_marshal_full values)

def unmarshalChanges (cap mode : Nat) : Read (ReplicatedContainer storage) := do
  checkCount mode cap
  let current_changes ← readLiveMaskBatches readU8 (unmarshalChange key_codec value_codec) mode .invalid
  pure (decodedChanges current_changes)

def unmarshal (cap : Nat) : Read (ReplicatedContainer storage) := do
  let mode ← unmarshalVlqU32
  if mode = 0 then unmarshalFull key_codec value_codec cap
  else unmarshalChanges key_codec value_codec cap mode.toNat

end Wire

section Merge

-- What both branches of a merge start from.
def mergeStart (container old_value : ReplicatedContainer storage) : ReplicatedContainer storage :=
  let cleared := container.clearAllChangeSets
  {cleared with
    flags := {cleared.flags with newNetworkData := false}
    seqOfLastProcessedChange := old_value.seqOfLastProcessedChange}

-- Old and new value are one object.
def mergeSame (start value : ReplicatedContainer storage) (seq : SequenceNumber) : ReplicatedContainer storage :=
  if value.lastModified.isValid then
    let copied := {start with lastModified := seq}.copyContainerFrom value value.seqOfLastProcessedChange
    let kept := if value.flags.initializeChange then copied else {copied with journal := value.journal}
    let pushed := kept.pushJournal ⟨seq,value.currentChanges⟩
    {pushed with flags := {pushed.flags with newNetworkData := true}}
  else start

def hasNewChanges (old_value new_value : ReplicatedContainer storage) : Bool :=
  match new_value.currentChanges.getLast? with
  | none => false
  | some last_change =>
    !old_value.seqOfLastProcessedChange.isValid || old_value.seqOfLastProcessedChange.less last_change.sequence

def hasNewInitialization (old_value new_value : ReplicatedContainer storage) : Bool :=
  new_value.flags.initializeChange && (!old_value.seqOfLastProcessedChange.isValid ||
    old_value.seqOfLastProcessedChange.less new_value.lastModifiedMarshalFull)

def hasNewValue (old_value new_value : ReplicatedContainer storage) : Bool :=
  hasNewChanges old_value new_value || hasNewInitialization old_value new_value ||
    old_value.journal.endSequence.less new_value.journal.endSequence

def mergeNew (start old_value new_value : ReplicatedContainer storage) (seq : SequenceNumber) : ReplicatedContainer storage :=
  let started := {start with lastModified := seq,flags := {start.flags with newNetworkData := true}}
  if new_value.flags.initializeChange then
    (started.copyContainerFrom new_value new_value.seqOfLastProcessedChange).pushJournal ⟨seq,new_value.currentChanges⟩
  else if !new_value.flags.pendingDeltaChanges then
    let copied := started.copyContainerFrom new_value new_value.seqOfLastProcessedChange
    if new_value.currentChanges.isEmpty then {copied with journal := new_value.journal}
    else {copied with journal := old_value.journal}.pushJournal ⟨seq,new_value.currentChanges⟩
  else
    let copied := started.copyContainerFrom old_value old_value.seqOfLastProcessedChange
    {copied with journal := old_value.journal}.mergeChangeSets new_value seq

def mergeOld (start old_value : ReplicatedContainer storage) (seq : SequenceNumber) (inherit_status : Bool) :
    ReplicatedContainer storage :=
  let copied := {start with lastModified := if old_value.lastModified.less seq then old_value.lastModified else seq}.copyContainerFrom
    old_value old_value.seqOfLastProcessedChange
  {copied with
    journal := old_value.journal
    flags := {copied.flags with
      newNetworkData := if inherit_status then old_value.flags.newNetworkData else copied.flags.newNetworkData}}

-- The merged container, what is left of the new one, and whether new data was seen.
def mergeAndUpdateSequence (container old_value new_value : ReplicatedContainer storage) (same : Bool)
    (seq : SequenceNumber) (inherit_status : Bool) : ReplicatedContainer storage × ReplicatedContainer storage × Bool :=
  let start := container.mergeStart old_value
  if same then (start.mergeSame new_value seq,new_value.clearCurrentChanges,true)
  else if new_value.lastModified.isValid && hasNewValue old_value new_value then
    (start.mergeNew old_value new_value seq,new_value.clearCurrentChanges,true)
  else (start.mergeOld old_value seq inherit_status,new_value.clearCurrentChanges,false)

end Merge
end ReplicatedContainer
end NwNetwork.Serialize
