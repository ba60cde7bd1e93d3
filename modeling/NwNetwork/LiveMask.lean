import NwNetwork.ByteBits
import NwNetwork.WireReader

namespace LiveMask
open WireReader ByteBits

section Writer
variable {σ α : Type} (isLive : α → Bool) (emit : σ → α → Bool → Bytes × σ)

def writeEntries : σ → List α → Bytes × σ
  | state,[] => ([],state)
  | state,entry :: entries =>
    let (bytes,next) := emit state entry (isLive entry)
    let (others,final) := writeEntries next entries
    (bytes ++ others,final)

-- Up to eight entries after one mask; the writer goes on with its state.
def writeBatches : Nat → σ → List α → Bytes
  | 0,_,_ => []
  | fuel+1,state,entries =>
    if entries.isEmpty then []
    else
      let chunk := entries.take 8
      let (bodies,next) := writeEntries isLive emit state chunk
      maskFrom 0 0 (chunk.map isLive) :: bodies ++ writeBatches fuel next (entries.drop 8)

def writeLiveMaskBatches (state : σ) (entries : List α) : Bytes := writeBatches isLive emit entries.length state entries

end Writer

section Readers
variable {ε τ β : Type} (readByte : Reader ε UInt8) (read : τ → Bool → Reader ε (β × τ))

def readEntries (mask : UInt8) : Nat → Nat → τ → Reader ε (List β × τ)
  | _,0,state => pure ([],state)
  | bit,count+1,state => do
    let (value,next) ← read state (hasBit mask bit)
    let (values,final) ← readEntries mask (bit + 1) count next
    pure (value :: values,final)

def readBatches : Nat → Nat → τ → Reader ε (List β)
  | 0,_,_ => pure []
  | fuel+1,remaining,state =>
    if remaining = 0 then pure []
    else do
      let mask ← readByte
      let (values,next) ← readEntries read mask 0 (min remaining 8) state
      let others ← readBatches fuel (remaining - min remaining 8) next
      pure (values ++ others)

def readLiveMaskBatches (total : Nat) (state : τ) : Reader ε (List β) := readBatches readByte read total total state

end Readers

section RoundTrip
variable {σ τ α β ε : Type} (decoded : τ → α → β) (advance : τ → α → τ)

-- What is read of each entry may depend on what the reader has seen before it.
def decodedEntries : τ → List α → List β
  | _,[] => []
  | state,entry :: entries => decoded state entry :: decodedEntries (advance state entry) entries

theorem decodedEntries_append (state : τ) (entries others : List α) :
    decodedEntries decoded advance state (entries ++ others) =
      decodedEntries decoded advance state entries ++
        decodedEntries decoded advance (entries.foldl advance state) others := by
  induction entries generalizing state with
  | nil => rfl
  | cons entry entries ih => exact congrArg (List.cons _) (ih (advance state entry))

variable (isLive : α → Bool) (emit : σ → α → Bool → Bytes × σ) (readByte : Reader ε UInt8)
  (read : τ → Bool → Reader ε (β × τ)) (related : σ → τ → Prop)

-- The reader follows the writer: entry by entry their states stay related.
variable (step : ∀ {state state' entry}, related state state' →
  related (emit state entry (isLive entry)).2 (advance state' entry) ∧ ∀ rest,
    read state' (isLive entry) ((emit state entry (isLive entry)).1 ++ rest) =
      .ok ((decoded state' entry,advance state' entry),rest))
  (byte : ∀ mask rest, readByte (mask :: rest) = .ok (mask,rest))
include step

theorem entries_back (start : related state state') (entries : List α) (mask : UInt8) (bit : Nat)
    (bits : ∀ place < entries.length, hasBit mask (bit + place) = (entries.map isLive).getD place false) :
    related (writeEntries isLive emit state entries).2 (entries.foldl advance state') ∧ ∀ rest,
      readEntries read mask bit entries.length state' ((writeEntries isLive emit state entries).1 ++ rest) =
        .ok ((decodedEntries decoded advance state' entries,entries.foldl advance state'),rest) := by
  induction entries generalizing state state' bit with
  | nil => exact ⟨start,fun _ => rfl⟩
  | cons entry entries ih =>
    obtain ⟨kept,first⟩ := step start
    have later : ∀ place < entries.length, hasBit mask (bit + 1 + place) = (entries.map isLive).getD place false := by
      intro place within
      rw [Nat.add_right_comm]
      exact bits (place + 1) (Nat.succ_lt_succ within)
    obtain ⟨final,others⟩ := ih kept (bit + 1) later
    refine ⟨final,?_⟩
    intro rest
    have live : hasBit mask bit = isLive entry := bits 0 (Nat.succ_pos _)
    unfold writeEntries
    dsimp only
    rw [List.append_assoc]
    have head := first ((writeEntries isLive emit (emit state entry (isLive entry)).2 entries).1 ++ rest)
    rw [← live] at head
    rw [← live] at others ⊢
    exact (Reader.bind_ok head).trans (Reader.bind_ok (others rest))

include byte

theorem batches_back (start : related state state') (entries : List α) (fuel : Nat) (enough : entries.length ≤ fuel)
    (rest : Bytes) :
    readBatches readByte read fuel entries.length state' (writeBatches isLive emit fuel state entries ++ rest) =
      .ok (decodedEntries decoded advance state' entries,rest) := by
  induction fuel generalizing state state' entries with
  | zero =>
    cases List.eq_nil_of_length_eq_zero (Nat.le_zero.mp enough)
    rfl
  | succ fuel ih =>
    cases entries with
    | nil => rfl
    | cons entry others =>
      let entries := entry :: others
      have short : (entries.take 8).length = min entries.length 8 := by rw [List.length_take,Nat.min_comm]
      have bits : ∀ place < (entries.take 8).length, hasBit (maskFrom 0 0 ((entries.take 8).map isLive)) (0 + place) =
          ((entries.take 8).map isLive).getD place false := by
        intro place within
        have fits : ((entries.take 8).map isLive).length ≤ 8 := by
          rw [List.length_map,short]
          exact Nat.min_le_right _ _
        have small : place < 8 := Nat.lt_of_lt_of_le within (short ▸ Nat.min_le_right _ _)
        rw [Nat.zero_add]
        exact flags_read fits small
      obtain ⟨kept,bodies⟩ := entries_back decoded advance isLive emit read related step start (entries.take 8) _ 0 bits
      have left : (entries.drop 8).length ≤ fuel := by
        rw [List.length_drop]
        have bound : entries.length ≤ fuel + 1 := enough
        omega
      have later := ih kept (entries.drop 8) left
      have count : (entries.drop 8).length = entries.length - min entries.length 8 := by
        rw [List.length_drop]
        omega
      rw [short] at bodies
      rw [count] at later
      have written : writeBatches isLive emit (fuel + 1) state entries ++ rest =
          maskFrom 0 0 ((entries.take 8).map isLive) :: ((writeEntries isLive emit state (entries.take 8)).1 ++
            (writeBatches isLive emit fuel (writeEntries isLive emit state (entries.take 8)).2 (entries.drop 8) ++ rest)) :=
        congrArg (List.cons _) (List.append_assoc _ _ _)
      have together := decodedEntries_append decoded advance state' (entries.take 8) (entries.drop 8)
      rw [List.take_append_drop] at together
      change readBatches readByte read (fuel + 1) entries.length state'
        (writeBatches isLive emit (fuel + 1) state entries ++ rest) =
          .ok (decodedEntries decoded advance state' entries,rest)
      rw [written,together]
      exact (Reader.bind_ok (byte _ _)).trans ((Reader.bind_ok (bodies _)).trans (Reader.bind_ok later))

theorem live_mask_back (start : related state state') (entries : List α) (rest : Bytes) :
    readLiveMaskBatches readByte read entries.length state' (writeLiveMaskBatches isLive emit state entries ++ rest) =
      .ok (decodedEntries decoded advance state' entries,rest) :=
  batches_back decoded advance isLive emit readByte read related step byte start entries entries.length (Nat.le_refl _) rest

end RoundTrip
end LiveMask
