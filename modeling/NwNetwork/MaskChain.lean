import NwNetwork.ReplicatedContents
import Mathlib.Data.List.GetD

namespace NwNetwork.Serialize
open WireReader ByteBits

structure MaskChain where
  bytes : Bytes
  deriving DecidableEq, Repr

namespace MaskChain

def fieldsPerByte : Nat := 7
def continuationBit : UInt8 := 0x80

def empty : MaskChain := ⟨[0]⟩

def chunkByte (dirty : List Bool) (byte_count chunk_idx : Nat) : UInt8 :=
  let start := chunk_idx*fieldsPerByte
  let stop := min (start + fieldsPerByte) dirty.length
  let byte := maskFrom 0 0 ((dirty.take stop).drop start)
  if chunk_idx + 1 < byte_count then byte ||| continuationBit else byte

def fromDirtyFields (dirty : List Bool) : MaskChain :=
  if dirty.isEmpty then empty
  else
    let byte_count := (dirty.length + fieldsPerByte - 1) / fieldsPerByte
    ⟨(List.range byte_count).map (chunkByte dirty byte_count)⟩

def isFieldSet (chain : MaskChain) (field_index : Nat) : Bool :=
  match chain.bytes[field_index / fieldsPerByte]? with
  | some byte => hasBit byte (field_index % fieldsPerByte)
  | none => false

def marshal (chain : MaskChain) : Bytes := chain.bytes

-- The bytes already read go before those that follow.
def unmarshalAfter (bytes : Bytes) : Read MaskChain
  | [] => .error (.bufferUnderrun 1 0)
  | m :: rest => if m &&& continuationBit == 0 then .ok (⟨bytes ++ [m]⟩,rest) else unmarshalAfter (bytes ++ [m]) rest

def unmarshal : Read MaskChain := unmarshalAfter []

def Continues (m : UInt8) : Prop := hasBit m 7 = true

theorem continuation_clear (m : UInt8) : (m &&& continuationBit == 0) = !hasBit m 7 := top_bit m

theorem unmarshal_stops (ends : ¬Continues m) : unmarshalAfter before (m :: rest) = .ok (⟨before ++ [m]⟩,rest) := by
  rw [unmarshalAfter,continuation_clear,Bool.eq_false_iff.mpr ends]
  rfl

theorem unmarshal_goes_on (more : Continues m) : unmarshalAfter before (m :: rest) = unmarshalAfter (before ++ [m]) rest := by
  have set : hasBit m 7 = true := more
  rw [unmarshalAfter,continuation_clear,set]
  rfl

-- A chain ends with its first byte that does not continue.
theorem unmarshal_chain (front : Bytes) (more : ∀ m ∈ front, Continues m) (ends : ¬Continues last) :
    unmarshalAfter before (front ++ last :: rest) = .ok (⟨before ++ front ++ [last]⟩,rest) := by
  induction front generalizing before with
  | nil =>
    rw [List.append_nil]
    exact unmarshal_stops ends
  | cons m front ih =>
    rw [List.cons_append,unmarshal_goes_on (more m List.mem_cons_self)]
    rw [ih fun other present => more other (List.mem_cons_of_mem _ present)]
    simp

theorem unmarshal_takes (ran : unmarshalAfter before wire = .ok (chain,rest)) : before ++ wire = chain.bytes ++ rest := by
  induction wire generalizing before with
  | nil => cases ran
  | cons m others ih =>
    by_cases more : Continues m
    · rw [unmarshal_goes_on more] at ran
      have taken := ih ran
      rwa [List.append_assoc] at taken
    · rw [unmarshal_stops more] at ran
      cases ran
      simp

-- Whatever chain is read is written back to the bytes it was read from.
theorem unmarshal_only : ReadsOnly marshal unmarshal := fun _ _ _ ran => unmarshal_takes ran

section Dirty
variable {dirty : List Bool} {byte_count chunk_idx : Nat}

theorem chunk_length : ((dirty.take (min (chunk_idx*7 + 7) dirty.length)).drop (chunk_idx*7)).length ≤ 7 := by
  rw [List.length_drop,List.length_take]
  omega

theorem chunk_flag (inside : bit < 7) :
    ((dirty.take (min (chunk_idx*7 + 7) dirty.length)).drop (chunk_idx*7)).getD bit false = dirty.getD (chunk_idx*7 + bit) false := by
  rw [List.getD_eq_getElem?_getD,List.getD_eq_getElem?_getD,List.getElem?_drop,List.getElem?_take]
  split
  · rfl
  · rename_i past
    rw [List.getElem?_eq_none (by omega)]

theorem chunk_reads (inside : bit < 7) :
    hasBit (chunkByte dirty byte_count chunk_idx) bit = dirty.getD (chunk_idx*7 + bit) false := by
  have short : ((dirty.take (min (chunk_idx*7 + 7) dirty.length)).drop (chunk_idx*7)).length ≤ 8 :=
    Nat.le_succ_of_le chunk_length
  have field := flags_read short (Nat.lt_succ_of_lt inside)
  rw [chunk_flag inside] at field
  unfold chunkByte fieldsPerByte
  dsimp only
  split
  · have apart : ¬7 = bit := by omega
    rw [hasBit_or,field,continuationBit,hasBit_top (Nat.lt_succ_of_lt inside),decide_eq_false apart,Bool.or_false]
  · exact field

theorem chunk_continues : Continues (chunkByte dirty byte_count chunk_idx) ↔ chunk_idx + 1 < byte_count := by
  have short : ((dirty.take (min (chunk_idx*7 + 7) dirty.length)).drop (chunk_idx*7)).length ≤ 7 := chunk_length
  have clear := flags_read (Nat.le_succ_of_le short) (by decide : 7 < 8)
  rw [List.getD_eq_default _ _ short] at clear
  unfold Continues chunkByte fieldsPerByte
  dsimp only
  split
  · rename_i later
    rw [hasBit_or,clear,continuationBit,hasBit_top (by decide)]
    simp [later]
  · rename_i last
    rw [clear]
    simp [last]

theorem dirty_chunks (some_field : dirty ≠ []) : ∃ count, (dirty.length + 6) / 7 = count + 1 ∧
    (fromDirtyFields dirty).bytes = (List.range count).map (chunkByte dirty (count + 1)) ++ [chunkByte dirty (count + 1) count] := by
  have filled := List.length_pos_iff.mpr some_field
  have counted : (dirty.length + 6) / 7 = (dirty.length - 1) / 7 + 1 := by omega
  refine ⟨(dirty.length - 1) / 7,counted,?_⟩
  have chain : (fromDirtyFields dirty).bytes = (List.range ((dirty.length + 6) / 7)).map (chunkByte dirty ((dirty.length + 6) / 7)) := by
    unfold fromDirtyFields
    rw [if_neg (by simpa using some_field)]
    rfl
  rw [chain,counted,List.range_succ,List.map_append]
  rfl

theorem dirty_reads_back (dirty : List Bool) : ReadsBack marshal unmarshal (fromDirtyFields dirty) := by
  intro rest
  by_cases none : dirty = []
  · subst none
    rfl
  · obtain ⟨count,_,chunks⟩ := dirty_chunks none
    have more : ∀ m ∈ (List.range count).map (chunkByte dirty (count + 1)), Continues m := by
      intro m present
      obtain ⟨chunk_idx,early,rfl⟩ := List.mem_map.mp present
      exact chunk_continues.mpr (Nat.succ_lt_succ (List.mem_range.mp early))
    have ends : ¬Continues (chunkByte dirty (count + 1) count) := fun goes_on => Nat.lt_irrefl _ (chunk_continues.mp goes_on)
    have read : unmarshal ((List.range count).map (chunkByte dirty (count + 1)) ++ chunkByte dirty (count + 1) count :: rest) =
        .ok (⟨[] ++ (List.range count).map (chunkByte dirty (count + 1)) ++ [chunkByte dirty (count + 1) count]⟩,rest) :=
      unmarshal_chain _ more ends
    rw [List.nil_append,← chunks] at read
    unfold marshal
    rw [chunks,List.append_assoc]
    exact read

theorem dirty_field (dirty : List Bool) (field_index : Nat) :
    (fromDirtyFields dirty).isFieldSet field_index = dirty.getD field_index false := by
  have place : field_index / 7 * 7 + field_index % 7 = field_index := by omega
  by_cases none : dirty = []
  · subst none
    unfold isFieldSet fieldsPerByte
    cases at_byte : field_index / 7 with
    | zero => exact hasBit_zero _
    | succ byte => rfl
  · obtain ⟨count,counted,chunks⟩ := dirty_chunks none
    have bytes : (fromDirtyFields dirty).bytes = (List.range (count + 1)).map (chunkByte dirty (count + 1)) := by
      rw [chunks,List.range_succ,List.map_append]
      rfl
    unfold isFieldSet fieldsPerByte
    rw [bytes,List.getElem?_map]
    by_cases inside : field_index / 7 < count + 1
    · rw [List.getElem?_range inside]
      have read : hasBit (chunkByte dirty (count + 1) (field_index / 7)) (field_index % 7) =
          dirty.getD (field_index / 7*7 + field_index % 7) false := chunk_reads (Nat.mod_lt _ (by decide))
      rwa [place] at read
    · rw [List.getElem?_eq_none (by rw [List.length_range]; omega),List.getD_eq_default _ _ (by omega)]
      rfl

end Dirty

-- Skipping is reading without keeping the bytes.
theorem skip_reads (before wire : Bytes) :
    skipMaskChain wire = (unmarshalAfter before wire).map fun read => ((),read.2) := by
  induction wire generalizing before with
  | nil => rfl
  | cons m rest ih =>
    by_cases more : Continues m
    · have set : hasBit m 7 = true := more
      rw [unmarshal_goes_on more,← ih,skipMaskChain,top_bit,set]
      rfl
    · rw [unmarshal_stops more,skipMaskChain,top_bit,Bool.eq_false_iff.mpr more]
      rfl

theorem skip_ok_iff : skipMaskChain wire = .ok ((),rest) ↔ ∃ chain, unmarshal wire = .ok (chain,rest) := by
  rw [skip_reads [] wire]
  unfold unmarshal
  cases ran : unmarshalAfter [] wire with
  | error error => simp [Except.map]
  | ok read => obtain ⟨chain,left⟩ := read; simp [Except.map]

theorem skip_error_iff : skipMaskChain wire = .error error ↔ unmarshal wire = .error error := by
  rw [skip_reads [] wire]
  unfold unmarshal
  cases ran : unmarshalAfter [] wire with
  | error other => simp [Except.map]
  | ok read => simp [Except.map]

theorem mask_chain_self_delimiting :
    (∀ dirty suffix, unmarshal (marshal (fromDirtyFields dirty) ++ suffix) = .ok (fromDirtyFields dirty,suffix) ∧
      ∀ field_index, (fromDirtyFields dirty).isFieldSet field_index = dirty.getD field_index false) ∧
    ∀ wire, (∀ rest, skipMaskChain wire = .ok ((),rest) ↔ ∃ chain, unmarshal wire = .ok (chain,rest)) ∧
      ∀ error, skipMaskChain wire = .error error ↔ unmarshal wire = .error error := by
  constructor
  · intro dirty suffix
    exact ⟨dirty_reads_back dirty suffix,dirty_field dirty⟩
  · intro wire
    exact ⟨fun rest => skip_ok_iff,fun error => skip_error_iff⟩

end MaskChain
end NwNetwork.Serialize
