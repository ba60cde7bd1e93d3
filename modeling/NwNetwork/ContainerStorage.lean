import NwNetwork.HubSequenceNumber
import NwNetwork.OrderedMap

namespace NwNetwork.Serialize
open WireReader Hub

inductive ChangeOp where
  | add
  | update
  | remove
  deriving DecidableEq, Repr

inductive Change (K V : Type) where
  | add (key : K) (value : Option V) (sequence : SequenceNumber)
  | update (key : K) (value : Option V) (sequence : SequenceNumber)
  | remove (key : K) (sequence : SequenceNumber)
  deriving DecidableEq

namespace Change
variable {K V : Type}

def delta (key : K) (value : Option V) (sequence : SequenceNumber) : Change K V :=
  match value with
  | some value => .update key (some value) sequence
  | none => .remove key sequence

def op : Change K V → ChangeOp
  | add _ _ _ => .add
  | update _ _ _ => .update
  | remove _ _ => .remove

def key : Change K V → K
  | add key _ _ | update key _ _ | remove key _ => key

def value : Change K V → Option V
  | add _ value _ | update _ value _ => value
  | remove _ _ => none

def sequence : Change K V → SequenceNumber
  | add _ _ sequence | update _ _ sequence | remove _ sequence => sequence

def isLive : Change K V → Bool
  | add _ _ _ | update _ _ _ => true
  | remove _ _ => false

def fillValue (change : Change K V) (next_value : V) : Change K V :=
  match change with
  | add key none sequence => .add key (some next_value) sequence
  | update key none sequence => .update key (some next_value) sequence
  | filled => filled

end Change

structure ChangeSet (K V : Type) where
  sequence : SequenceNumber
  changes : List (Change K V)
  deriving DecidableEq

-- What the ordinary containers supply, and when two of them hold the same values.
structure ContainerStorage (K V : Type) where
  Values : Type
  empty : Values
  len : Values → Nat
  marshalEntries : Codec MarshalerError K → Codec MarshalerError V → Values → Bytes
  unmarshalEntries : Codec MarshalerError K → Codec MarshalerError V → Nat → Read Values
  changeValue : Values → K → Option V
  applyChange : Values → Change K V → Values
  Same : Values → Values → Prop

namespace ContainerStorage
variable {K V : Type}

def populateChangeValue (storage : ContainerStorage K V) (values : storage.Values) (change : Change K V) : Change K V :=
  if !change.isLive || change.value.isSome then change
  else
    match storage.changeValue values change.key with
    | some value => change.fillValue value
    | none => change

def applyChanges (storage : ContainerStorage K V) (values : storage.Values) (changes : List (Change K V)) :
    storage.Values :=
  changes.foldl storage.applyChange values

theorem applyChanges_append (storage : ContainerStorage K V) (values : storage.Values) (first later : List (Change K V)) :
    storage.applyChanges values (first ++ later) = storage.applyChanges (storage.applyChanges values first) later :=
  List.foldl_append

end ContainerStorage

-- The index is a 64-bit one; out of bounds nothing is done (where debug builds stop).
def Vec.write (index : Nat) (value : V) (values : List V) : List V :=
  if index < values.length then values.set index value
  else if index = values.length then values ++ [value]
  else values

def Vec.applyChange (values : List V) (change : Change (BitVec 64) V) : List V :=
  match change.op,change.value with
  | .add,some value | .update,some value => Vec.write change.key.toNat value values
  | .add,none | .update,none => values
  | .remove,_ => if change.key.toNat < values.length then values.eraseIdx change.key.toNat else values

abbrev vecStorage (V : Type) : ContainerStorage (BitVec 64) V where
  Values := List V
  empty := []
  len := List.length
  marshalEntries _ value_codec values := values.flatMap value_codec.write
  unmarshalEntries _ value_codec count := Reader.times value_codec.read count
  changeValue values key := values[key.toNat]?
  applyChange := Vec.applyChange
  Same values others := values = others

section Maps
variable {K V : Type}

def marshalPair (key_codec : Codec MarshalerError K) (value_codec : Codec MarshalerError V) (entry : K × V) : Bytes :=
  key_codec.write entry.1 ++ value_codec.write entry.2

def unmarshalPair (key_codec : Codec MarshalerError K) (value_codec : Codec MarshalerError V) : Read (K × V) := do
  let key ← key_codec.read
  let value ← value_codec.read
  pure (key,value)

theorem pair_back (key_codec : Codec MarshalerError K) (value_codec : Codec MarshalerError V) (entry : K × V) :
    ReadsBack (marshalPair key_codec value_codec) (unmarshalPair key_codec value_codec) entry := by
  intro rest
  unfold marshalPair unmarshalPair
  rw [List.append_assoc,(key_codec.readsBack entry.1).bind,(value_codec.readsBack entry.2).bind]
  rfl

variable [DecidableEq K]

def unmarshalMap (key_codec : Codec MarshalerError K) (value_codec : Codec MarshalerError V) (count : Nat) :
    Read (OrderedMap K V) := do
  let entries ← Reader.times (unmarshalPair key_codec value_codec) count
  pure (OrderedMap.ofEntries entries)

def Map.applyChange (values : OrderedMap K V) (change : Change K V) : OrderedMap K V :=
  match change.op,change.value with
  | .add,some value | .update,some value => values.insert change.key value
  | .add,none | .update,none => values
  | .remove,_ => values.shiftRemove change.key

abbrev indexMapStorage (K V : Type) [DecidableEq K] : ContainerStorage K V where
  Values := OrderedMap K V
  empty := .empty
  len values := values.entries.length
  marshalEntries key_codec value_codec values := values.entries.flatMap (marshalPair key_codec value_codec)
  unmarshalEntries := unmarshalMap
  changeValue := OrderedMap.get
  applyChange := Map.applyChange
  Same values others := values = others

-- A hash map lists its entries in an order of its own, which is no part of what it
-- holds.
structure IterationOrder (K V : Type) where
  entries : OrderedMap K V → List (K × V)
  all : ∀ values, (entries values).Perm values.entries

abbrev hashMapStorage (order : IterationOrder K V) : ContainerStorage K V where
  Values := OrderedMap K V
  empty := .empty
  len values := values.entries.length
  marshalEntries key_codec value_codec values := (order.entries values).flatMap (marshalPair key_codec value_codec)
  unmarshalEntries := unmarshalMap
  changeValue := OrderedMap.get
  applyChange := Map.applyChange
  Same values others := ∀ key, values.get key = others.get key

end Maps

inductive StorageKind (V : Type) : Type → Type 1 where
  | vec : StorageKind V (BitVec 64)
  | hashMap {K : Type} [DecidableEq K] (order : IterationOrder K V) : StorageKind V K
  | indexMap {K : Type} [DecidableEq K] : StorageKind V K

abbrev StorageKind.storage : StorageKind V K → ContainerStorage K V
  | .vec => vecStorage V
  | @StorageKind.hashMap _ _ keys order => @hashMapStorage _ _ keys order
  | @StorageKind.indexMap _ _ keys => @indexMapStorage _ _ keys

end NwNetwork.Serialize
