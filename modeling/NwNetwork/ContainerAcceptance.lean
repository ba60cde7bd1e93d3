import NwNetwork.ContainerDelta

namespace NwNetwork.Serialize
open WireReader Hub StateRuns

-- One sender and one receiver of what it sends. No modelled function reads
-- `snapshotMerged`: a snapshot with a valid sequence was merged.
structure Exchange (storage : ContainerStorage K V) where
  sender : Sender storage
  receiver : ReplicatedContainer storage
  snapshotMerged : Bool

inductive ExchangeAction (K V : Type) where
  | send (action : SenderAction K V)
  | deliver (baseline seq : SequenceNumber) (inherit_status : Bool)

namespace Exchange
variable {K V : Type} {storage : ContainerStorage K V} [Inhabited V] (key_codec : Codec MarshalerError K)
  (value_codec : Codec MarshalerError V) (cap : Nat)

def start (last_modified : SequenceNumber) (values : storage.Values) : Exchange storage :=
  ⟨Sender.start last_modified values,.default,false⟩

def merge (receiver decoded : ReplicatedContainer storage) (seq : SequenceNumber) (inherit_status : Bool) :
    ReplicatedContainer storage × Bool :=
  let merged := ReplicatedContainer.default.mergeAndUpdateSequence receiver decoded false seq inherit_status
  (merged.1,merged.2.2)

def deliver (exchange : Exchange storage) (baseline seq : SequenceNumber) (inherit_status : Bool) : Exchange storage :=
  match exchange.sender.working.marshalSince key_codec value_codec baseline with
  | none => exchange
  | some bytes =>
    match (ReplicatedContainer.unmarshal key_codec value_codec cap : Read (ReplicatedContainer storage)) bytes with
    | .error _ => exchange
    | .ok (decoded,_) =>
      {exchange with
        receiver := (merge exchange.receiver decoded seq inherit_status).1
        snapshotMerged := exchange.snapshotMerged || (!decoded.isDelta && decoded.lastModifiedMarshalFull.isValid)}

def step (exchange : Exchange storage) : ExchangeAction K V → Exchange storage
  | .send action => {exchange with sender := exchange.sender.step action}
  | .deliver baseline seq inherit_status => exchange.deliver key_codec value_codec cap baseline seq inherit_status

end Exchange

section Decoded
variable {K V : Type} {kind : StorageKind V K} {key_codec : Codec MarshalerError K}
  {value_codec : Codec MarshalerError V} {cap : Nat} {container : ReplicatedContainer kind.storage}

-- Whatever else the bytes of a snapshot hold, they are read as one with the sender's
-- sequence or not at all, and the same for a change list.
theorem decoded_full (sent : container.marshalFull key_codec value_codec = some bytes)
    (read : (ReplicatedContainer.unmarshal key_codec value_codec cap : Read (ReplicatedContainer kind.storage)) bytes =
      .ok (decoded,rest)) :
    ∃ values, decoded = ReplicatedContainer.decodedFull container.lastModified.normalized values := by
  unfold ReplicatedContainer.marshalFull at sent
  obtain ⟨count,_,written⟩ := Option.bind_eq_some_iff.mp sent
  cases written
  rw [List.append_assoc,List.append_assoc] at read
  have first := (Reader.bind_ok (vlqU32_back 0 _)).symm.trans read
  rw [if_pos rfl] at first
  have second := (Reader.bind_ok (SequenceNumber.sequence_back container.lastModified _)).symm.trans first
  obtain ⟨_,_,_,third⟩ := Reader.bind_eq_ok.mp second
  obtain ⟨_,_,_,fourth⟩ := Reader.bind_eq_ok.mp third
  obtain ⟨values,_,_,last⟩ := Reader.bind_eq_ok.mp fourth
  cases last
  exact ⟨values,rfl⟩

variable [Inhabited V]

theorem decoded_list {changes : List (Change K V)} (unsequenced : ∀ change ∈ changes, change.sequence = .invalid)
    (several : changes ≠ []) (small : changes.length < 2^32)
    (sent : container.marshalChanges key_codec value_codec changes = some bytes)
    (read : (ReplicatedContainer.unmarshal key_codec value_codec cap : Read (ReplicatedContainer kind.storage)) bytes =
      .ok (decoded,rest)) :
    decoded = ReplicatedContainer.decodedChanges (changes.map container.received) := by
  by_cases room : changes.length ≤ cap
  · obtain ⟨other,written,back⟩ := container.changes_back key_codec value_codec unsequenced several room small
    cases written.symm.trans sent
    have again := back []
    rw [List.append_nil] at again
    cases again.symm.trans read
    rfl
  · have refused := container.changes_overflow key_codec value_codec (Nat.lt_of_not_le room) sent []
    rw [List.append_nil] at refused
    cases refused.symm.trans read

-- What a sender that was only edited locally has sent, once decoded.
theorem decoded_sent {sender : Sender kind.storage} (own : Local sender)
    (sent : sender.working.marshalSince key_codec value_codec baseline = some bytes)
    (read : (ReplicatedContainer.unmarshal key_codec value_codec cap : Read (ReplicatedContainer kind.storage)) bytes =
      .ok (decoded,rest)) :
    (∃ values, decoded = ReplicatedContainer.decodedFull sender.working.lastModified.normalized values) ∨
      ∃ changes : List (Change K V), decoded = ReplicatedContainer.decodedChanges changes ∧ changes ≠ [] ∧
        ∀ change ∈ changes, change.sequence = .invalid := by
  rw [marshalSince_forms] at sent
  split at sent
  · rename_i listed
    obtain ⟨_,lists⟩ := Bool.and_eq_true_iff.mp listed
    obtain ⟨unsequenced,several,few,_⟩ := listed_sendable own lists
    refine .inr ⟨_,decoded_list unsequenced several (Nat.lt_trans few (by decide)) sent read,?_,?_⟩
    · exact fun empty => several (List.map_eq_nil_iff.mp empty)
    · intro change member
      obtain ⟨_,_,rfl⟩ := List.mem_map.mp member
      unfold ReplicatedContainer.received Change.delta
      split <;> rfl
  · exact .inl (decoded_full sent read)

end Decoded

section Merged
variable {K V : Type} {storage : ContainerStorage K V} {receiver : ReplicatedContainer storage}

theorem less_invalid (sequence : SequenceNumber) : sequence.less .invalid = false := by
  by_contra above
  cases SequenceNumber.less_valid (Bool.not_eq_false _ ▸ above)

-- A change list is taken or left as a whole, by the sequence of its last change.
theorem merge_list (receiver : ReplicatedContainer storage) {changes : List (Change K V)} (several : changes ≠ [])
    (seq : SequenceNumber) (inherit_status : Bool) :
    (Exchange.merge receiver (.decodedChanges changes) seq inherit_status).2 =
        (!receiver.seqOfLastProcessedChange.isValid ||
          receiver.seqOfLastProcessedChange.less (changes.getLast several).sequence) ∧
      (Exchange.merge receiver (.decodedChanges changes) seq inherit_status).1.values =
        (if (Exchange.merge receiver (.decodedChanges changes) seq inherit_status).2 then
          storage.applyChanges receiver.values changes else receiver.values) ∧
      (Exchange.merge receiver (.decodedChanges changes) seq inherit_status).1.seqOfLastProcessedChange =
        receiver.seqOfLastProcessedChange := by
  have nonempty : changes.isEmpty = false := List.isEmpty_eq_false_iff.mpr several
  have found : ReplicatedContainer.hasNewChanges receiver (.decodedChanges changes) =
      (!receiver.seqOfLastProcessedChange.isValid ||
        receiver.seqOfLastProcessedChange.less (changes.getLast several).sequence) := by
    have last : (ReplicatedContainer.decodedChanges changes : ReplicatedContainer storage).currentChanges.getLast? =
        some (changes.getLast several) := List.getLast?_eq_some_getLast several
    unfold ReplicatedContainer.hasNewChanges
    rw [last]
  have news : ReplicatedContainer.hasNewValue receiver (.decodedChanges changes) =
      (!receiver.seqOfLastProcessedChange.isValid ||
        receiver.seqOfLastProcessedChange.less (changes.getLast several).sequence) := by
    have behind : receiver.journal.endSequence.less
        (ReplicatedContainer.decodedChanges changes : ReplicatedContainer storage).journal.endSequence = false := less_invalid _
    unfold ReplicatedContainer.hasNewValue
    rw [found,behind,Bool.or_false]
    exact Bool.or_false _
  unfold Exchange.merge ReplicatedContainer.mergeAndUpdateSequence
  rw [if_neg Bool.false_ne_true,news]
  cases taken : (!receiver.seqOfLastProcessedChange.isValid ||
      receiver.seqOfLastProcessedChange.less (changes.getLast several).sequence) with
  | false => exact ⟨rfl,rfl,rfl⟩
  | true =>
    have applied : ∀ merged : ReplicatedContainer storage,
        merged.mergeChangeSets (.decodedChanges changes) seq = merged.applyChangeSet seq changes := by
      intro merged
      unfold ReplicatedContainer.mergeChangeSets
      exact if_neg (Bool.eq_false_iff.mp nonempty)
    refine ⟨rfl,?_,?_⟩
    · exact congrArg ReplicatedContainer.values (applied _)
    · exact (congrArg ReplicatedContainer.seqOfLastProcessedChange (applied _)).trans rfl

-- A change list without sequences is taken exactly by a receiver that has none.
theorem merge_changes (receiver : ReplicatedContainer storage) {changes : List (Change K V)} (several : changes ≠ [])
    (unsequenced : ∀ change ∈ changes, change.sequence = .invalid) (seq : SequenceNumber) (inherit_status : Bool) :
    (receiver.seqOfLastProcessedChange.isValid = false →
      (Exchange.merge receiver (.decodedChanges changes) seq inherit_status).1.values =
          storage.applyChanges receiver.values changes ∧
        (Exchange.merge receiver (.decodedChanges changes) seq inherit_status).2 = true) ∧
    (receiver.seqOfLastProcessedChange.isValid = true →
      (Exchange.merge receiver (.decodedChanges changes) seq inherit_status).2 = false) ∧
    (Exchange.merge receiver (.decodedChanges changes) seq inherit_status).1.seqOfLastProcessedChange =
      receiver.seqOfLastProcessedChange := by
  obtain ⟨taken,values,processed⟩ := merge_list receiver several seq inherit_status
  rw [unsequenced _ (List.getLast_mem several),less_invalid,Bool.or_false] at taken
  refine ⟨?_,?_,processed⟩
  · intro fresh
    rw [fresh] at taken
    rw [values,taken]
    exact ⟨rfl,rfl⟩
  · intro valid
    rw [taken,valid]
    rfl

-- A snapshot leaves its sequence, unless the receiver has a later one.
theorem merge_full (sequence : SequenceNumber) (values : storage.Values) (seq : SequenceNumber) (inherit_status : Bool) :
    (Exchange.merge receiver (.decodedFull sequence values) seq inherit_status).1.seqOfLastProcessedChange.isValid =
      (receiver.seqOfLastProcessedChange.isValid || sequence.isValid) := by
  have behind : receiver.journal.endSequence.less
      (ReplicatedContainer.decodedFull sequence values : ReplicatedContainer storage).journal.endSequence = false := less_invalid _
  have news : ReplicatedContainer.hasNewValue receiver (.decodedFull sequence values) =
      (!receiver.seqOfLastProcessedChange.isValid || receiver.seqOfLastProcessedChange.less sequence) := by
    unfold ReplicatedContainer.hasNewValue
    rw [behind,Bool.or_false]
    rfl
  unfold Exchange.merge ReplicatedContainer.mergeAndUpdateSequence
  rw [if_neg Bool.false_ne_true,news]
  cases valid : receiver.seqOfLastProcessedChange.isValid with
  | false => rfl
  | true =>
    cases later : receiver.seqOfLastProcessedChange.less sequence with
    | true => exact SequenceNumber.less_valid later
    | false => exact valid

end Merged

section Runs
variable {K V : Type} [Inhabited V] {kind : StorageKind V K} {key_codec : Codec MarshalerError K}
  {value_codec : Codec MarshalerError V} {cap : Nat}

-- The receiver has a valid last processed sequence just when it has merged a
-- snapshot with one.
structure Tracked (exchange : Exchange kind.storage) : Prop where
  own : Local exchange.sender
  processed : exchange.receiver.seqOfLastProcessedChange.isValid = exchange.snapshotMerged

theorem tracked_step {exchange : Exchange kind.storage} (tracked : Tracked exchange) (action : ExchangeAction K V) :
    Tracked (exchange.step key_codec value_codec cap action) := by
  cases action with
  | send action => exact ⟨local_step tracked.own action,tracked.processed⟩
  | deliver baseline seq inherit_status =>
    change Tracked (exchange.deliver key_codec value_codec cap baseline seq inherit_status)
    unfold Exchange.deliver
    split
    · exact tracked
    · rename_i bytes sent
      split
      · exact tracked
      · rename_i decoded rest read
        refine ⟨tracked.own,?_⟩
        rcases decoded_sent tracked.own sent read with ⟨values,rfl⟩ | ⟨changes,rfl,several,unsequenced⟩
        · change (Exchange.merge exchange.receiver _ seq inherit_status).1.seqOfLastProcessedChange.isValid = _
          rw [merge_full,tracked.processed]
          rfl
        · change (Exchange.merge exchange.receiver _ seq inherit_status).1.seqOfLastProcessedChange.isValid = _
          rw [(merge_changes exchange.receiver several unsequenced seq inherit_status).2.2,tracked.processed]
          have delta : (ReplicatedContainer.decodedChanges changes : ReplicatedContainer kind.storage).isDelta = true := by
            cases changes with
            | nil => exact absurd rfl several
            | cons change changes => rfl
          rw [delta]
          exact (Bool.or_false _).symm

theorem tracked_run {exchange : Exchange kind.storage} (tracked : Tracked exchange) (actions : List (ExchangeAction K V)) :
    Tracked (actions.foldl (Exchange.step key_codec value_codec cap) exchange) := by
  induction actions generalizing exchange with
  | nil => exact tracked
  | cons action actions ih => exact ih (tracked_step tracked action)

-- A change list of the sender is merged as new data exactly when no snapshot with a
-- valid sequence was merged before.
theorem container_delta_acceptance (last_modified : SequenceNumber) (values : kind.storage.Values)
    (actions : List (ExchangeAction K V)) {exchange : Exchange kind.storage}
    (reached : actions.foldl (Exchange.step key_codec value_codec cap) (.start last_modified values) = exchange)
    (baseline seq : SequenceNumber) (inherit_status : Bool)
    (sent : exchange.sender.working.marshalSince key_codec value_codec baseline = some bytes)
    (read : (ReplicatedContainer.unmarshal key_codec value_codec cap : Read (ReplicatedContainer kind.storage)) bytes =
      .ok (decoded,rest)) (delta : decoded.isDelta = true) :
    ((Exchange.merge exchange.receiver decoded seq inherit_status).1.values =
          kind.storage.applyChanges exchange.receiver.values decoded.currentChanges ∧
        (Exchange.merge exchange.receiver decoded seq inherit_status).2 = true) ↔
      exchange.snapshotMerged = false := by
  have tracked : Tracked exchange := reached ▸ tracked_run ⟨local_start last_modified values,rfl⟩ actions
  rw [← tracked.processed]
  rcases decoded_sent tracked.own sent read with ⟨_,rfl⟩ | ⟨changes,rfl,several,unsequenced⟩
  · cases delta
  · obtain ⟨accepted,ignored,_⟩ := merge_changes exchange.receiver several unsequenced seq inherit_status
    constructor
    · rintro ⟨_,detected⟩
      by_contra valid
      rw [ignored (Bool.not_eq_false _ ▸ valid)] at detected
      cases detected
    · exact accepted

-- The first update of a vector, merged by a container that has had no snapshot.
def updated : List (ExchangeAction (BitVec 64) UInt8) :=
  [.send (.merge (.seq 1)),.send (.edit (.update 0 7)),.send (.merge (.seq 2))]

def byteExchange (actions : List (ExchangeAction (BitVec 64) UInt8)) : Exchange byteVec.storage :=
  actions.foldl (Exchange.step indexKeys byteValues wireVecCap) (.start .validNonSequence three)

theorem container_delta_acceptance_update :
    ∃ decoded : ReplicatedContainer byteVec.storage, decoded.isDelta = true ∧
      (((Exchange.merge (byteExchange updated).receiver decoded (.seq 3) false).1.values =
            byteVec.storage.applyChanges (byteExchange updated).receiver.values decoded.currentChanges ∧
          (Exchange.merge (byteExchange updated).receiver decoded (.seq 3) false).2 = true) ↔
        (byteExchange updated).snapshotMerged = false) := by
  have sent : (byteExchange updated).sender.working.marshalSince indexKeys byteValues (.seq 1) = some [1,1,0,1,0,7] := by
    decide +kernel
  exact ⟨.decodedChanges [.update 0 (some 7) .invalid],rfl,
    container_delta_acceptance .validNonSequence three updated rfl (.seq 1) (.seq 3) false sent rfl rfl⟩

-- The same update after the snapshot of the first merge.
def snapshotFirst : List (ExchangeAction (BitVec 64) UInt8) :=
  [.send (.merge (.seq 1)),.deliver .invalid (.seq 1) false,.send (.edit (.update 0 7)),.send (.merge (.seq 2))]

theorem update_ignored :
    ∃ decoded : ReplicatedContainer byteVec.storage,
      (∃ bytes, (byteExchange snapshotFirst).sender.working.marshalSince indexKeys byteValues (.seq 1) = some bytes ∧
        (ReplicatedContainer.unmarshal indexKeys byteValues wireVecCap : Read (ReplicatedContainer byteVec.storage)) bytes =
          .ok (decoded,[])) ∧
      decoded.isDelta = true ∧
      ¬((Exchange.merge (byteExchange snapshotFirst).receiver decoded (.seq 2) false).1.values =
            byteVec.storage.applyChanges (byteExchange snapshotFirst).receiver.values decoded.currentChanges ∧
          (Exchange.merge (byteExchange snapshotFirst).receiver decoded (.seq 2) false).2 = true) := by
  have sent : (byteExchange snapshotFirst).sender.working.marshalSince indexKeys byteValues (.seq 1) =
      some [1,1,0,1,0,7] := by
    decide +kernel
  have ignored : (Exchange.merge (byteExchange snapshotFirst).receiver
      (.decodedChanges [.update 0 (some 7) .invalid]) (.seq 2) false).2 = false := by
    decide +kernel
  refine ⟨.decodedChanges [.update 0 (some 7) .invalid],⟨_,sent,rfl⟩,rfl,?_⟩
  rintro ⟨_,detected⟩
  cases ignored.symm.trans detected

end Runs
end NwNetwork.Serialize
