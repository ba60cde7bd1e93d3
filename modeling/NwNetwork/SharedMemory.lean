import Mathlib.Data.List.Basic

namespace SharedMemory
variable {β : Type}

-- Chunks of cells by their number; what a chunk has not been given is arbitrary.
abbrev Memory (β : Type) := Nat → Nat → β

structure Slice where
  chunk : Nat
  start : Nat
  len : Nat
  deriving DecidableEq, Repr

namespace Slice

def Covers (slice : Slice) (chunk position : Nat) : Prop :=
  chunk = slice.chunk ∧ slice.start ≤ position ∧ position < slice.start + slice.len

instance (slice : Slice) (chunk position : Nat) : Decidable (slice.Covers chunk position) :=
  inferInstanceAs (Decidable (_ ∧ _))

-- No cell belongs to both.
def Apart (slice other : Slice) : Prop := ∀ chunk position, slice.Covers chunk position → ¬ other.Covers chunk position

end Slice

def read (memory : Memory β) (slice : Slice) : List β :=
  (List.range slice.len).map fun index => memory slice.chunk (slice.start + index)

def fill (memory : Memory β) (slice : Slice) (value : β) : Memory β := fun chunk position =>
  if slice.Covers chunk position then value else memory chunk position

def store (memory : Memory β) (slice : Slice) (offset : Nat) (value : β) : Memory β := fun chunk position =>
  if slice.Covers chunk position ∧ position = slice.start + offset then value else memory chunk position

variable {slice other : Slice}

@[simp] theorem read_length (memory : Memory β) (slice : Slice) : (read memory slice).length = slice.len := by
  simp [read]

theorem read_get (memory : Memory β) (slice : Slice) (inside : index < slice.len) :
    (read memory slice)[index]? = some (memory slice.chunk (slice.start + index)) := by
  simp [read,inside]

theorem covers_index (inside : index < slice.len) : slice.Covers slice.chunk (slice.start + index) :=
  ⟨rfl,Nat.le_add_right _ _,Nat.add_lt_add_left inside _⟩

theorem read_congr {memory after : Memory β} (same : ∀ chunk position, slice.Covers chunk position →
    after chunk position = memory chunk position) : read after slice = read memory slice := by
  unfold read
  apply List.map_congr_left
  intro index inside
  exact same _ _ (covers_index (List.mem_range.mp inside))

theorem read_fill (memory : Memory β) (slice : Slice) (value : β) :
    read (fill memory slice value) slice = List.replicate slice.len value := by
  apply List.eq_replicate_iff.mpr
  refine ⟨read_length _ _,?_⟩
  intro cell present
  obtain ⟨index,inside,rfl⟩ := List.mem_map.mp present
  exact if_pos (covers_index (List.mem_range.mp inside))

theorem read_fill_apart (memory : Memory β) (value : β) (apart : other.Apart slice) :
    read (fill memory slice value) other = read memory other :=
  read_congr fun chunk position covered => if_neg (apart chunk position covered)

theorem read_store (memory : Memory β) (slice : Slice) (offset : Nat) (value : β) :
    read (store memory slice offset value) slice = (read memory slice).set offset value := by
  apply List.ext_getElem?
  intro index
  by_cases inside : index < slice.len
  · rw [read_get _ _ inside,List.getElem?_set,read_get _ _ inside]
    by_cases here : offset = index
    · rw [if_pos here,if_pos (by rw [here,read_length]; exact inside)]
      exact congrArg some (if_pos ⟨covers_index inside,by rw [here]⟩)
    · rw [if_neg here]
      exact congrArg some (if_neg fun stored => here (by have placed := stored.2; omega))
  · rw [List.getElem?_eq_none (by rw [read_length]; omega),List.getElem?_eq_none (by rw [List.length_set,read_length]; omega)]

theorem read_store_apart (memory : Memory β) (offset : Nat) (value : β) (apart : other.Apart slice) :
    read (store memory slice offset value) other = read memory other :=
  read_congr fun chunk position covered => if_neg fun stored => apart chunk position covered stored.1

theorem read_take (memory : Memory β) (slice : Slice) (within : len ≤ slice.len) :
    read memory {slice with len := len} = (read memory slice).take len := by
  unfold read
  rw [← List.map_take,List.take_range,Nat.min_eq_left within]

end SharedMemory
