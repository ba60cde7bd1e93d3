import NwNetwork.ReplicatedContainer

namespace NwNetwork.Serialize
open WireReader Hub LiveMask

-- Fewer than 2^14 changes that are not too many for the values are no more than
-- the values.
theorem efficient_le (few : changes < vlqTwoByteChangeLimit) (efficient : inefficient changes values = false) :
    changes ≤ values := by
  unfold inefficient at efficient
  rw [decide_eq_false_iff_not,Nat.not_lt] at efficient
  unfold vlqTwoByteChangeLimit at few
  by_contra more
  have small : changes < 2^24 := by omega
  have smaller : values < 2^24 := by omega
  have bound := SinglePrecision.round_le (values * 13421773)
  rw [SinglePrecision.round_exact small,SinglePrecision.round_exact smaller] at efficient
  omega

theorem checked (room : count ≤ cap) (bytes : Bytes) : checkCount count cap bytes = .ok ((),bytes) := by
  unfold checkCount
  rw [if_neg (Nat.not_lt.mpr room)]
  rfl

theorem count_size (small : len < 2^32) : (BitVec.ofNat 32 len).toNat = len := by
  rw [BitVec.toNat_ofNat]
  exact Nat.mod_eq_of_lt small

theorem count_nonzero (several : len ≠ 0) (small : len < 2^32) : BitVec.ofNat 32 len ≠ 0 := by
  intro zero
  have none_left := congrArg BitVec.toNat zero
  rw [count_size small] at none_left
  exact several none_left

theorem value_back (value_codec : Codec MarshalerError V) (value : V) (live : Bool) (next : Option V → Read α) (rest : Bytes) :
    ((if live then do
        let value ← value_codec.read
        pure (some value)
      else pure none) >>= next) ((if live then value_codec.write value else []) ++ rest) =
      next (if live then some value else none) rest := by
  cases live with
  | false => rfl
  | true => exact Reader.bind_ok ((value_codec.readsBack value).bind _ rest)

namespace ReplicatedContainer
variable {K V : Type} {storage : ContainerStorage K V} (key_codec : Codec MarshalerError K)
  (value_codec : Codec MarshalerError V)

theorem full_back (kind : StorageKind V K) (container : ReplicatedContainer kind.storage)
    (room : kind.storage.len container.values ≤ cap) (small : kind.storage.len container.values < 2^32) :
    ∃ bytes values, container.marshalFull key_codec value_codec = some bytes ∧
      kind.storage.Same values container.values ∧ ∀ rest,
        unmarshal key_codec value_codec cap (bytes ++ rest) = .ok (decodedFull container.lastModified.normalized values,rest) := by
  obtain ⟨values,same,entries⟩ := kind.entries_back key_codec value_codec container.values
  refine ⟨marshalVlqU32 0 ++ container.lastModified.marshal ++
    marshalVlqU32 (BitVec.ofNat 32 (kind.storage.len container.values)) ++
    kind.storage.marshalEntries key_codec value_codec container.values,values,?_,same,?_⟩
  · unfold marshalFull marshalWireCount
    rw [if_pos small]
    rfl
  · intro rest
    rw [List.append_assoc,List.append_assoc,List.append_assoc]
    refine (Reader.bind_ok (vlqU32_back 0 _)).trans ?_
    rw [if_pos rfl]
    refine (Reader.bind_ok (SequenceNumber.sequence_back _ _)).trans ?_
    refine (Reader.bind_ok (vlqU32_back _ _)).trans ?_
    rw [count_size small]
    exact (Reader.bind_ok (checked room _)).trans (Reader.bind_ok (entries rest))

variable [Inhabited V]

def sentValue (container : ReplicatedContainer storage) (change : Change K V) : V :=
  (change.value.or (storage.changeValue container.values change.key)).getD Inhabited.default

-- What is decoded of a change behind one with the sequence `previous`.
def receivedAfter (container : ReplicatedContainer storage) (previous : SequenceNumber) (change : Change K V) : Change K V :=
  .delta change.key (if change.isLive then some (container.sentValue change) else none) (previous.readAfter change.sequence)

-- What is decoded of a change without a sequence of its own.
def received (container : ReplicatedContainer storage) (change : Change K V) : Change K V :=
  .delta change.key (if change.isLive then some (container.sentValue change) else none) .invalid

-- The marker says nothing of its own, so a writer that has sent it is followed by any
-- reader.
def Follows (sent previous : SequenceNumber) : Prop := sent.sameAs .validNonSequence = false → sent.normalized = previous

theorem change_read (container : ReplicatedContainer storage) (follows : Follows sent previous) (change : Change K V) :
    Follows (container.marshalChange key_codec value_codec sent change change.isLive).2
        (previous.readAfter change.sequence) ∧ ∀ rest,
      unmarshalChange key_codec value_codec previous change.isLive
        ((container.marshalChange key_codec value_codec sent change change.isLive).1 ++ rest) =
          .ok ((container.receivedAfter previous change,previous.readAfter change.sequence),rest) := by
  have key := fun rest => (key_codec.readsBack change.key) rest
  unfold marshalChange unmarshalChange
  cases repeated : change.sequence.sameAs sent with
  | true =>
    have same : change.sequence.normalized = sent.normalized :=
      congrArg SequenceNumber.fromRaw (beq_iff_eq.mp repeated)
    have marked : change.sequence.sameAs .validNonSequence = sent.sameAs .validNonSequence := by
      unfold SequenceNumber.sameAs
      rw [beq_iff_eq.mp repeated]
    have kept : previous.readAfter change.sequence = previous := by
      unfold SequenceNumber.readAfter
      rw [marked,same]
      cases marker : sent.sameAs .validNonSequence with
      | true => rfl
      | false => exact follows marker
    refine ⟨kept.symm ▸ follows,?_⟩
    intro rest
    dsimp only
    rw [if_pos rfl,List.append_assoc,List.append_assoc]
    refine (Reader.bind_ok (key _)).trans ?_
    refine (Reader.bind_ok (SequenceNumber.sequence_back .validNonSequence _)).trans ?_
    refine (value_back value_codec (container.sentValue change) change.isLive _ rest).trans ?_
    unfold receivedAfter
    rw [kept]
    rfl
  | false =>
    refine ⟨?_,?_⟩
    · intro unmarked
      unfold SequenceNumber.readAfter
      exact (if_neg (Bool.eq_false_iff.mp unmarked)).symm
    · intro rest
      dsimp only
      rw [if_neg Bool.false_ne_true,List.append_assoc,List.append_assoc]
      refine (Reader.bind_ok (key _)).trans ?_
      refine (Reader.bind_ok (SequenceNumber.sequence_back change.sequence _)).trans ?_
      refine (value_back value_codec (container.sentValue change) change.isLive _ rest).trans ?_
      have marker : change.sequence.normalized.sameAs .validNonSequence = change.sequence.sameAs .validNonSequence := by
        unfold SequenceNumber.sameAs
        rw [SequenceNumber.normalized_rawValue]
      rw [marker]
      rfl

-- The changes of a list as they are decoded, each behind the ones before it.
def receivedChanges (container : ReplicatedContainer storage) (changes : List (Change K V)) : List (Change K V) :=
  decodedEntries container.receivedAfter (fun previous change => previous.readAfter change.sequence) .invalid changes

theorem changes_read (container : ReplicatedContainer storage) {changes : List (Change K V)} (several : changes ≠ [])
    (room : changes.length ≤ cap) (small : changes.length < 2^32) :
    ∃ bytes, container.marshalChanges key_codec value_codec changes = some bytes ∧ ∀ rest,
      unmarshal key_codec value_codec cap (bytes ++ rest) =
        .ok ((decodedChanges (container.receivedChanges changes) : ReplicatedContainer storage),rest) := by
  refine ⟨marshalVlqU32 (BitVec.ofNat 32 changes.length) ++
    writeLiveMaskBatches Change.isLive (container.marshalChange key_codec value_codec) .invalid changes,?_,?_⟩
  · unfold marshalChanges marshalWireCount
    rw [if_pos small]
    rfl
  · intro rest
    have read := live_mask_back container.receivedAfter (fun previous change => previous.readAfter change.sequence)
      Change.isLive (container.marshalChange key_codec value_codec) readU8 (unmarshalChange key_codec value_codec) Follows
      (fun follows => change_read key_codec value_codec container follows _) (fun _ _ => rfl)
      (fun _ => rfl : Follows .invalid .invalid) changes rest
    rw [List.append_assoc]
    refine (Reader.bind_ok (vlqU32_back _ _)).trans ?_
    rw [if_neg (count_nonzero (fun empty => several (List.eq_nil_of_length_eq_zero empty)) small),count_size small]
    exact (Reader.bind_ok (checked room _)).trans (Reader.bind_ok read)

theorem changes_back (container : ReplicatedContainer storage) {changes : List (Change K V)}
    (unsequenced : ∀ change ∈ changes, change.sequence = .invalid) (several : changes ≠ [])
    (room : changes.length ≤ cap) (small : changes.length < 2^32) :
    ∃ bytes, container.marshalChanges key_codec value_codec changes = some bytes ∧ ∀ rest,
      unmarshal key_codec value_codec cap (bytes ++ rest) =
        .ok ((decodedChanges (changes.map container.received) : ReplicatedContainer storage),rest) := by
  have plain : container.receivedChanges changes = changes.map container.received := by
    unfold receivedChanges
    clear several room small
    induction changes with
    | nil => rfl
    | cons change changes ih =>
      have own : SequenceNumber.readAfter .invalid change.sequence = .invalid := by
        rw [unsequenced change List.mem_cons_self]
        rfl
      unfold decodedEntries
      rw [own,ih fun change member => unsequenced change (List.mem_cons_of_mem _ member)]
      unfold receivedAfter received
      rw [own]
      rfl
  rw [← plain]
  exact changes_read key_codec value_codec container several room small

-- More changes than the receiving container has room for are refused.
theorem changes_overflow (container : ReplicatedContainer storage) {changes : List (Change K V)}
    (beyond : cap < changes.length) (sent : container.marshalChanges key_codec value_codec changes = some bytes)
    (rest : Bytes) : (unmarshal key_codec value_codec cap : Read (ReplicatedContainer storage)) (bytes ++ rest) =
      .error (.containerOverflow changes.length cap) := by
  unfold marshalChanges marshalWireCount at sent
  split at sent
  · rename_i small
    cases sent
    rw [List.append_assoc]
    refine (Reader.bind_ok (vlqU32_back _ _)).trans ?_
    rw [if_neg (count_nonzero (Nat.ne_of_gt (Nat.zero_lt_of_lt beyond)) small),count_size small]
    apply Reader.bind_error
    unfold checkCount
    exact congrFun (if_pos beyond) _
  · cases sent

-- The sequences of a list as they are read: a zero is read as the last one before it
-- that is none.
def readSequences : SequenceNumber → List SequenceNumber → List SequenceNumber :=
  decodedEntries SequenceNumber.readAfter SequenceNumber.readAfter

theorem receivedChanges_parts (container : ReplicatedContainer storage) (changes : List (Change K V)) :
    (container.receivedChanges changes).map Change.key = changes.map Change.key ∧
      (container.receivedChanges changes).map Change.isLive = changes.map Change.isLive ∧
      (container.receivedChanges changes).map Change.value =
        changes.map (fun change => if change.isLive then some (container.sentValue change) else none) ∧
      (container.receivedChanges changes).map Change.sequence = readSequences .invalid (changes.map Change.sequence) := by
  unfold receivedChanges readSequences
  generalize SequenceNumber.invalid = previous
  induction changes generalizing previous with
  | nil => exact ⟨rfl,rfl,rfl,rfl⟩
  | cons change changes ih =>
    obtain ⟨keys,lives,values,sequences⟩ := ih (previous.readAfter change.sequence)
    have parts : (container.receivedAfter previous change).key = change.key ∧
        (container.receivedAfter previous change).isLive = change.isLive ∧
        (container.receivedAfter previous change).value =
          (if change.isLive then some (container.sentValue change) else none) ∧
        (container.receivedAfter previous change).sequence = previous.readAfter change.sequence := by
      unfold receivedAfter
      cases change.isLive with
      | true => exact ⟨rfl,rfl,rfl,rfl⟩
      | false => exact ⟨rfl,rfl,rfl,rfl⟩
    exact ⟨congrArg₂ List.cons parts.1 keys,congrArg₂ List.cons parts.2.1 lives,congrArg₂ List.cons parts.2.2.1 values,
      congrArg₂ List.cons parts.2.2.2 sequences⟩

-- A snapshot is read back with its entries, and a change list with its changes in
-- order, up to the sequences that only repeat the one before.
theorem wire_round_trip (kind : StorageKind V K) (container : ReplicatedContainer kind.storage) (cap : Nat) :
    (kind.storage.len container.values ≤ cap → kind.storage.len container.values < 2^32 →
      ∃ bytes values, container.marshalFull key_codec value_codec = some bytes ∧
        kind.storage.Same values container.values ∧ ∀ rest,
          unmarshal key_codec value_codec cap (bytes ++ rest) =
            .ok (decodedFull container.lastModified.normalized values,rest)) ∧
    ∀ changes : List (Change K V), changes ≠ [] → changes.length ≤ cap → changes.length < 2^32 →
      ∃ bytes decoded, container.marshalChanges key_codec value_codec changes = some bytes ∧
        (∀ rest, unmarshal key_codec value_codec cap (bytes ++ rest) =
          .ok ((decodedChanges decoded : ReplicatedContainer kind.storage),rest)) ∧
        decoded.map Change.key = changes.map Change.key ∧ decoded.map Change.isLive = changes.map Change.isLive ∧
        decoded.map Change.value =
          changes.map (fun change => if change.isLive then some (container.sentValue change) else none) ∧
        decoded.map Change.sequence = readSequences .invalid (changes.map Change.sequence) := by
  constructor
  · exact full_back key_codec value_codec kind container
  · intro changes several room small
    obtain ⟨bytes,sent,back⟩ := changes_read key_codec value_codec container several room small
    exact ⟨bytes,container.receivedChanges changes,sent,back,container.receivedChanges_parts changes⟩

end ReplicatedContainer

section Examples

def indexKeys : Codec MarshalerError (BitVec 64) := ⟨marshalVlqU64,unmarshalVlqU64,vlqU64_back⟩
def byteValues : Codec MarshalerError UInt8 := ⟨writeU8,readU8,u8_back⟩
def wireVecCap : Nat := 0x2000000

abbrev byteVec : StorageKind UInt8 (BitVec 64) := .vec

-- A removal with the sequence zero behind an update with the sequence 5.
def zeroBehindFive : List (Change (BitVec 64) UInt8) := [.update 0 (some 7) (.seq 5),.remove 1 .validNonSequence]

theorem wire_round_trip_zero :
    ∃ bytes decoded, (ReplicatedContainer.default : ReplicatedContainer byteVec.storage).marshalChanges indexKeys byteValues
        zeroBehindFive = some bytes ∧
      (∀ rest, ReplicatedContainer.unmarshal indexKeys byteValues wireVecCap (bytes ++ rest) =
        .ok ((.decodedChanges decoded : ReplicatedContainer byteVec.storage),rest)) ∧
      decoded.map Change.sequence = [.seq 5,.seq 5] := by
  obtain ⟨bytes,decoded,sent,back,_,_,_,sequences⟩ :=
    (ReplicatedContainer.wire_round_trip indexKeys byteValues byteVec .default wireVecCap).2 zeroBehindFive
      (List.cons_ne_nil _ _) (by decide) (by decide)
  exact ⟨bytes,decoded,sent,back,sequences⟩

theorem zero_read_as_five :
    ∃ bytes, (ReplicatedContainer.default : ReplicatedContainer byteVec.storage).marshalChanges indexKeys byteValues
        zeroBehindFive = some bytes ∧
      (ReplicatedContainer.unmarshal indexKeys byteValues wireVecCap : Read (ReplicatedContainer byteVec.storage)) bytes =
        .ok (.decodedChanges [.update 0 (some 7) (.seq 5),.remove 1 (.seq 5)],[]) ∧
      SequenceNumber.sameAs (.seq 5) .validNonSequence = false :=
  ⟨_,rfl,rfl,rfl⟩

end Examples
end NwNetwork.Serialize
