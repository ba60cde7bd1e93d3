import NwNetwork.SharedMemory

namespace NwNetwork.Gridmate
open SharedMemory

-- What a buffer handle says about itself: its place in a chunk, the bytes in use
-- and the bytes it may grow to in place.
structure View where
  chunk : Nat
  start : Nat
  len : Nat
  capacity : Nat
  deriving DecidableEq, Repr

def View.slice (view : View) : Slice := ⟨view.chunk,view.start,view.len⟩

-- The buffer type of the crate that the ring is built on. `live` are the chunks
-- that some handle still keeps, and `splitTo` returns the head and the rest.
structure BytesCrate where
  BytesMut : Type
  view : BytesMut → View
  new : BytesMut
  withCapacity : List Nat → Nat → BytesMut
  truncate : BytesMut → Nat → BytesMut
  resize : Memory UInt8 → BytesMut → Nat → UInt8 → Memory UInt8 × BytesMut
  splitTo : BytesMut → Nat → Option (BytesMut × BytesMut)
  freeze : BytesMut → Slice

-- The documented behaviour. Growing beyond the capacity may move the bytes; nothing
-- is said about it here.
structure BytesCrate.Documented (crate : BytesCrate) : Prop where
  within (buffer : crate.BytesMut) : (crate.view buffer).len ≤ (crate.view buffer).capacity
  created : (crate.view crate.new).len = 0
  allocated (live : List Nat) (requested : Nat) : (crate.view (crate.withCapacity live requested)).chunk ∉ live ∧
    (crate.view (crate.withCapacity live requested)).len = 0 ∧
    requested ≤ (crate.view (crate.withCapacity live requested)).capacity
  truncated (buffer : crate.BytesMut) (len : Nat) : crate.view (crate.truncate buffer len) =
    {crate.view buffer with len := min len (crate.view buffer).len}
  resized (memory : Memory UInt8) (buffer : crate.BytesMut) (new_len : Nat) (value : UInt8)
    (longer : (crate.view buffer).len ≤ new_len) (room : new_len ≤ (crate.view buffer).capacity) :
    (crate.resize memory buffer new_len value).1 = fill memory ⟨(crate.view buffer).chunk,
      (crate.view buffer).start + (crate.view buffer).len,new_len - (crate.view buffer).len⟩ value ∧
    crate.view (crate.resize memory buffer new_len value).2 = {crate.view buffer with len := new_len}
  split (buffer : crate.BytesMut) (count : Nat) (inside : count ≤ (crate.view buffer).len) :
    ∃ taken rest, crate.splitTo buffer count = some (taken,rest) ∧
      (crate.view taken).slice = {(crate.view buffer).slice with len := count} ∧
      crate.view rest = ⟨(crate.view buffer).chunk,(crate.view buffer).start + count,
        (crate.view buffer).len - count,(crate.view buffer).capacity - count⟩
  frozen (buffer : crate.BytesMut) : crate.freeze buffer = (crate.view buffer).slice

structure RecvRing (crate : BytesCrate) where
  ring : crate.BytesMut
  chunkSize : Nat
  maxDatagram : Nat
  slotActive : Bool
  holds : maxDatagram ≤ chunkSize

namespace RecvRing
variable {crate : BytesCrate}

def subtract (left right : Nat) : Option Nat := if right ≤ left then some (left - right) else none

def new (crate : BytesCrate) (chunk_size max_datagram : Nat) : Option (RecvRing crate) :=
  if holds : max_datagram ≤ chunk_size then some ⟨crate.new,chunk_size,max_datagram,false,holds⟩ else none

def view (self : RecvRing crate) : View := crate.view self.ring

-- Every function here returns `none` where the source panics.
def rollBack (self : RecvRing crate) : Option (RecvRing crate) :=
  if self.slotActive then
    (subtract self.view.len self.maxDatagram).map fun target =>
      {self with ring := crate.truncate self.ring target, slotActive := false}
  else some self

def makeRoom (live : List Nat) (self : RecvRing crate) : Option (RecvRing crate) :=
  (subtract self.view.capacity self.view.len).map fun free =>
    if free < self.maxDatagram then {self with ring := crate.withCapacity live self.chunkSize} else self

-- The slice is what the caller may write to until its next call.
def openSlot (memory : Memory UInt8) (self : RecvRing crate) : Slice × Memory UInt8 × RecvRing crate :=
  let start := self.view.len
  let resized := crate.resize memory self.ring (start + self.maxDatagram) 0
  let opened := {self with ring := resized.2, slotActive := true}
  (⟨opened.view.chunk,opened.view.start + start,opened.view.len - start⟩,resized.1,opened)

def recvSlot (live : List Nat) (memory : Memory UInt8) (self : RecvRing crate) :
    Option (Slice × Memory UInt8 × RecvRing crate) := do
  let rolled ← self.rollBack
  let roomy ← rolled.makeRoom live
  some (roomy.openSlot memory)

def commit (self : RecvRing crate) (len : Nat) : Option (Slice × RecvRing crate) :=
  if len ≤ self.maxDatagram ∧ self.slotActive then do
    let trim := self.maxDatagram - len
    let new_len ← subtract self.view.len trim
    let (taken,rest) ← crate.splitTo (crate.truncate self.ring new_len) new_len
    some (crate.freeze taken,{self with ring := rest, slotActive := false})
  else none

end RecvRing

-- A caller with its ring, the slice of the last slot while it may be written to, and
-- the committed bytes; one that has been dropped leaves its place empty.
structure Receiving (crate : BytesCrate) where
  memory : Memory UInt8
  ring : RecvRing crate
  slot : Option Slice
  held : List (Option Slice)

inductive RecvAction where
  | recvSlot
  | write (offset : Nat) (value : UInt8)
  | commit (len : Nat)
  | drop (index : Nat)
  deriving DecidableEq, Repr

namespace Receiving
variable {crate : BytesCrate}

def start (memory : Memory UInt8) (ring : RecvRing crate) : Receiving crate := ⟨memory,ring,none,[]⟩

def live (state : Receiving crate) : List Nat := state.ring.view.chunk :: state.held.filterMap (Option.map Slice.chunk)

def act (state : Receiving crate) : RecvAction → Option (Receiving crate)
  | .recvSlot =>
    (state.ring.recvSlot state.live state.memory).map fun (slot,memory,ring) => ⟨memory,ring,some slot,state.held⟩
  | .write offset value => some
    {state with memory := state.slot.elim state.memory fun slot => store state.memory slot offset value}
  | .commit len => (state.ring.commit len).map fun (bytes,ring) => ⟨state.memory,ring,none,state.held ++ [some bytes]⟩
  | .drop index => some {state with held := state.held.set index none}

-- The checks of a commit stand before its changes: a caller that survives the panic
-- finds everything as it was.
def step (state : Receiving crate) (action : RecvAction) : Receiving crate := (state.act action).getD state

def run (state : Receiving crate) (actions : List RecvAction) : Receiving crate := actions.foldl step state

end Receiving

-- The bytes of the slot as the calls have left them, from the calls alone.
def slotWritten (max_datagram : Nat) (slot : Option (List UInt8)) : RecvAction → Option (List UInt8)
  | .recvSlot => some (List.replicate max_datagram 0)
  | .write offset value => slot.map fun bytes => bytes.set offset value
  | .commit len => if len ≤ max_datagram then none else slot
  | .drop _ => slot

def lastWritten (max_datagram : Nat) (actions : List RecvAction) : Option (List UInt8) :=
  actions.foldl (slotWritten max_datagram) none

namespace RecvRing
variable {crate : BytesCrate} {ring : RecvRing crate}

theorem subtract_some (within : right ≤ left) : subtract left right = some (left - right) := if_pos within

variable (documented : crate.Documented)
include documented

theorem rollBack_run (idle : ring.slotActive = false → ring.view.len = 0)
    (active : ring.slotActive = true → ring.view.len = ring.maxDatagram) :
    ∃ rolled, ring.rollBack = some rolled ∧ rolled.view = {ring.view with len := 0} ∧
      rolled.maxDatagram = ring.maxDatagram := by
  unfold rollBack
  cases pending : ring.slotActive with
  | false =>
    have empty := idle pending
    refine ⟨ring,rfl,?_,rfl⟩
    rw [← empty]
  | true =>
    have full := active pending
    rw [if_pos rfl,subtract_some (Nat.le_of_eq full.symm)]
    refine ⟨_,rfl,?_,rfl⟩
    change crate.view (crate.truncate ring.ring _) = _
    rw [documented.truncated,full,Nat.sub_self,Nat.zero_min]
    rfl

theorem makeRoom_run (empty : ring.view.len = 0) (live : List Nat) : ∃ roomy, ring.makeRoom live = some roomy ∧
    roomy.view.len = 0 ∧ ring.maxDatagram ≤ roomy.view.capacity ∧ roomy.maxDatagram = ring.maxDatagram ∧
    (roomy.view.chunk = ring.view.chunk ∧ roomy.view.start = ring.view.start ∨ roomy.view.chunk ∉ live) := by
  have within : ring.view.len ≤ ring.view.capacity := documented.within ring.ring
  unfold makeRoom
  rw [subtract_some within,Option.map_some]
  by_cases short : ring.view.capacity - ring.view.len < ring.maxDatagram
  · rw [if_pos short]
    obtain ⟨fresh,unused,room⟩ := documented.allocated live ring.chunkSize
    exact ⟨_,rfl,unused,Nat.le_trans ring.holds room,rfl,.inr fresh⟩
  · rw [if_neg short]
    exact ⟨ring,rfl,empty,by omega,rfl,.inl ⟨rfl,rfl⟩⟩

theorem openSlot_run (empty : ring.view.len = 0) (room : ring.maxDatagram ≤ ring.view.capacity) (memory : Memory UInt8) :
    ∃ after, ring.openSlot memory = (after.view.slice,fill memory after.view.slice 0,after) ∧ after.slotActive = true ∧
      after.view = {ring.view with len := ring.maxDatagram} ∧ after.maxDatagram = ring.maxDatagram := by
  obtain ⟨filled,placed⟩ := documented.resized memory ring.ring (ring.view.len + ring.maxDatagram) 0 (Nat.le_add_right _ _)
    (by rw [empty,Nat.zero_add]; exact room)
  change _ = fill memory ⟨ring.view.chunk,ring.view.start + ring.view.len,_ - ring.view.len⟩ 0 at filled
  have view : (ring.openSlot memory).2.2.view = {ring.view with len := ring.maxDatagram} := by
    refine placed.trans ?_
    rw [empty,Nat.zero_add]
    rfl
  have slice : (ring.openSlot memory).2.2.view.slice = ⟨ring.view.chunk,ring.view.start,ring.maxDatagram⟩ := by
    rw [view]
    rfl
  have slot : (ring.openSlot memory).1 = (ring.openSlot memory).2.2.view.slice := by
    change Slice.mk (ring.openSlot memory).2.2.view.chunk ((ring.openSlot memory).2.2.view.start + ring.view.len)
      ((ring.openSlot memory).2.2.view.len - ring.view.len) = _
    rw [empty]
    rfl
  have cleared : (ring.openSlot memory).2.1 = fill memory (ring.openSlot memory).2.2.view.slice 0 := by
    rw [slice]
    refine filled.trans ?_
    rw [empty,Nat.zero_add,Nat.add_zero,Nat.sub_zero]
  exact ⟨_,Prod.ext slot (Prod.ext cleared rfl),rfl,view,rfl⟩

theorem recvSlot_run (idle : ring.slotActive = false → ring.view.len = 0)
    (active : ring.slotActive = true → ring.view.len = ring.maxDatagram) (live : List Nat) (memory : Memory UInt8) :
    ∃ after, ring.recvSlot live memory = some (after.view.slice,fill memory after.view.slice 0,after) ∧
      after.slotActive = true ∧ after.view.len = ring.maxDatagram ∧ after.maxDatagram = ring.maxDatagram ∧
      (after.view.chunk = ring.view.chunk ∧ after.view.start = ring.view.start ∨ after.view.chunk ∉ live) := by
  obtain ⟨rolled,rolled_back,rolled_view,size⟩ := rollBack_run documented idle active
  have unused : rolled.view.len = 0 := by rw [rolled_view]
  obtain ⟨roomy,renewed,empty,room,same_size,place⟩ := makeRoom_run documented unused live
  obtain ⟨after,opened,running,view,last_size⟩ := openSlot_run documented empty (by rw [same_size]; exact room) memory
  refine ⟨after,?_,running,?_,last_size.trans (same_size.trans size),?_⟩
  · unfold recvSlot
    rw [rolled_back,Option.bind_eq_bind,Option.bind_some,renewed,Option.bind_some,opened]
  · rw [view]
    exact same_size.trans size
  · rw [view]
    rw [rolled_view] at place
    exact place

theorem commit_run (active : ring.slotActive = true) (full : ring.view.len = ring.maxDatagram) (within : len ≤ ring.maxDatagram) :
    ∃ rest, ring.commit len = some ({ring.view.slice with len := len},rest) ∧ rest.slotActive = false ∧
      rest.view.chunk = ring.view.chunk ∧ rest.view.start = ring.view.start + len ∧ rest.view.len = 0 ∧
      rest.maxDatagram = ring.maxDatagram := by
  have trimmed : subtract ring.view.len (ring.maxDatagram - len) = some len := by
    rw [subtract_some (by omega)]
    congr 1
    omega
  have cut := documented.truncated ring.ring len
  have short : (crate.view (crate.truncate ring.ring len)).len = len := by
    rw [cut]
    exact Nat.min_eq_left (by change len ≤ ring.view.len; omega)
  have same_chunk : (crate.view (crate.truncate ring.ring len)).chunk = ring.view.chunk := by
    rw [cut]
    rfl
  have same_start : (crate.view (crate.truncate ring.ring len)).start = ring.view.start := by
    rw [cut]
    rfl
  obtain ⟨taken,rest,split,head,tail⟩ := documented.split (crate.truncate ring.ring len) len (Nat.le_of_eq short.symm)
  refine ⟨{ring with ring := rest, slotActive := false},?_,rfl,?_,?_,?_,rfl⟩
  · unfold commit
    rw [if_pos ⟨within,active⟩]
    dsimp only
    rw [trimmed,Option.bind_eq_bind,Option.bind_some,split,Option.bind_eq_bind,Option.bind_some]
    dsimp only
    rw [documented.frozen,head,cut]
    rfl
  · exact (congrArg View.chunk tail).trans same_chunk
  · exact (congrArg View.start tail).trans (congrArg (· + len) same_start)
  · refine (congrArg View.len tail).trans ?_
    change (crate.view (crate.truncate ring.ring len)).len - len = 0
    rw [short,Nat.sub_self]

end RecvRing

-- Committed bytes end where the ring's part of their chunk starts, if not before.
def Behind (bytes : Slice) (view : View) : Prop := bytes.chunk = view.chunk → bytes.start + bytes.len ≤ view.start

theorem behind_apart (behind : Behind bytes view) : bytes.Apart view.slice := by
  intro chunk position covered other
  have ended := behind (covered.1.symm.trans other.1)
  exact Nat.lt_irrefl _ (Nat.lt_of_lt_of_le covered.2.2 (Nat.le_trans ended other.2.1))

namespace Receiving
variable {crate : BytesCrate} {state : Receiving crate}

-- Between the calls the ring is either empty or exactly the open slot.
structure Sound (max_datagram : Nat) (written : Option (List UInt8)) (state : Receiving crate) : Prop where
  size : state.ring.maxDatagram = max_datagram
  idle : state.ring.slotActive = false → state.ring.view.len = 0 ∧ state.slot = none ∧ written = none
  active : state.ring.slotActive = true → state.ring.view.len = max_datagram ∧
    state.slot = some state.ring.view.slice ∧ written = some (read state.memory state.ring.view.slice)
  behind : ∀ bytes, some bytes ∈ state.held → Behind bytes state.ring.view

-- What one call leaves of the commits that it does not drop.
def KeepsCommits (state next : Receiving crate) (action : RecvAction) : Prop :=
  ∀ index bytes, action ≠ .drop index → state.held[index]? = some (some bytes) →
    next.held[index]? = some (some bytes) ∧ read next.memory bytes = read state.memory bytes

theorem start_sound {ring : RecvRing crate} (documented : crate.Documented)
    (built : RecvRing.new crate chunk_size max_datagram = some ring) (memory : Memory UInt8) : (start memory ring).Sound max_datagram none := by
  unfold RecvRing.new at built
  split at built
  · cases built
    exact ⟨rfl,fun _ => ⟨documented.created,rfl,rfl⟩,nofun,fun _ held => absurd held List.not_mem_nil⟩
  · cases built

variable (sound : state.Sound max_datagram written)
include sound

theorem recvSlot_step (documented : crate.Documented) : ∃ next, state.act .recvSlot = some next ∧
    next.Sound max_datagram (some (List.replicate max_datagram 0)) ∧ KeepsCommits state next .recvSlot := by
  obtain ⟨after,opened,running,full,size,place⟩ := RecvRing.recvSlot_run documented (fun idle => (sound.idle idle).1)
    (fun active => (sound.active active).1.trans sound.size.symm) state.live state.memory
  have behind : ∀ bytes, some bytes ∈ state.held → Behind bytes after.view := by
    intro bytes held same_chunk
    rcases place with ⟨same,same_start⟩ | fresh
    · rw [same_start]
      exact sound.behind bytes held (same_chunk.trans same)
    · have alive : bytes.chunk ∈ state.live := List.mem_cons_of_mem _ (List.mem_filterMap.mpr ⟨some bytes,held,rfl⟩)
      exact absurd (same_chunk ▸ alive) fresh
  refine ⟨⟨fill state.memory after.view.slice 0,after,some after.view.slice,state.held⟩,?_,?_,?_⟩
  · unfold act
    rw [opened]
    rfl
  · refine ⟨size.trans sound.size,fun idle => ?_,fun _ => ⟨full.trans sound.size,rfl,?_⟩,behind⟩
    · rw [running] at idle
      cases idle
    · rw [read_fill,← sound.size,← full]
      rfl
  · exact fun index bytes _ held => ⟨held,read_fill_apart _ _ (behind_apart (behind bytes (List.mem_of_getElem? held)))⟩

theorem write_step (offset : Nat) (value : UInt8) : ∃ next, state.act (.write offset value) = some next ∧
    next.Sound max_datagram (written.map fun bytes => bytes.set offset value) ∧
    KeepsCommits state next (.write offset value) := by
  cases pending : state.ring.slotActive with
  | false =>
    obtain ⟨empty,closed,rfl⟩ := sound.idle pending
    have untouched : (state.slot.elim state.memory fun slot => store state.memory slot offset value) = state.memory := by
      rw [closed]
      rfl
    have same : state.act (.write offset value) = some state := by
      obtain ⟨memory,ring,slot,held⟩ := state
      exact congrArg (fun cells => some (Receiving.mk cells ring slot held)) untouched
    exact ⟨state,same,sound,fun _ _ _ held => ⟨held,rfl⟩⟩
  | true =>
    obtain ⟨full,opened,rfl⟩ := sound.active pending
    refine ⟨{state with memory := store state.memory state.ring.view.slice offset value},?_,?_,?_⟩
    · unfold act
      rw [opened]
      rfl
    · refine ⟨sound.size,fun idle => ?_,fun _ => ⟨full,opened,?_⟩,sound.behind⟩
      · rw [pending] at idle
        cases idle
      · exact congrArg some (read_store _ _ _ _).symm
    · exact fun index bytes _ held =>
        ⟨held,read_store_apart _ _ _ (behind_apart (sound.behind bytes (List.mem_of_getElem? held)))⟩

theorem commit_step (documented : crate.Documented) (pending : state.ring.slotActive = true) (within : len ≤ max_datagram) :
    ∃ next, state.act (.commit len) = some next ∧ next.Sound max_datagram none ∧ KeepsCommits state next (.commit len) ∧
      next.memory = state.memory ∧ next.held = state.held ++ [some {state.ring.view.slice with len := len}] := by
  obtain ⟨full,_,_⟩ := sound.active pending
  have allowed : len ≤ state.ring.maxDatagram := by
    rw [sound.size]
    exact within
  obtain ⟨rest,committed,idle,chunk,begins,empty,size⟩ := RecvRing.commit_run documented pending
    (full.trans sound.size.symm) allowed
  refine ⟨⟨state.memory,rest,none,state.held ++ [some {state.ring.view.slice with len := len}]⟩,?_,?_,?_,rfl,rfl⟩
  · change (state.ring.commit len).map _ = _
    rw [committed]
    rfl
  · refine ⟨size.trans sound.size,fun _ => ⟨empty,rfl,rfl⟩,fun active => ?_,?_⟩
    · rw [idle] at active
      cases active
    · intro bytes held same_chunk
      rw [begins]
      rcases List.mem_append.mp held with earlier | last
      · exact Nat.le_add_right_of_le (sound.behind bytes earlier (same_chunk.trans chunk))
      · cases List.mem_singleton.mp last
        exact Nat.le_refl _
  · exact fun index bytes _ held => ⟨List.getElem?_append_left (List.getElem?_eq_some_iff.mp held).1 ▸ held,rfl⟩

theorem drop_step (index : Nat) : ∃ next, state.act (.drop index) = some next ∧ next.Sound max_datagram written ∧
    KeepsCommits state next (.drop index) := by
  refine ⟨_,rfl,⟨sound.size,sound.idle,sound.active,?_⟩,?_⟩
  · intro bytes held
    rcases List.mem_or_eq_of_mem_set held with earlier | dropped
    · exact sound.behind bytes earlier
    · cases dropped
  · intro other bytes spared held
    have elsewhere : index ≠ other := fun same => spared (same ▸ rfl)
    exact ⟨(List.getElem?_set_ne elsewhere).trans held,rfl⟩

theorem panicked (refused : ¬ (len ≤ max_datagram ∧ state.ring.slotActive = true)) : state.step (.commit len) = state := by
  have none_returned : state.act (.commit len) = none := by
    have returned : state.ring.commit len = none := if_neg (by rw [sound.size]; exact refused)
    change (state.ring.commit len).map _ = none
    rw [returned]
    rfl
  unfold step
  rw [none_returned]
  rfl

-- One call of any kind, the ones that panic included.
theorem step_sound (documented : crate.Documented) (action : RecvAction) :
    (state.step action).Sound max_datagram (slotWritten max_datagram written action) ∧
      KeepsCommits state (state.step action) action := by
  have returns {next} (ran : state.act action = some next) : state.step action = next := by
    unfold step
    rw [ran]
    rfl
  cases action with
  | recvSlot =>
    obtain ⟨next,ran,kept⟩ := recvSlot_step sound documented
    rw [returns ran]
    exact kept
  | write offset value =>
    obtain ⟨next,ran,kept⟩ := write_step sound offset value
    rw [returns ran]
    exact kept
  | drop index =>
    obtain ⟨next,ran,kept⟩ := drop_step sound index
    rw [returns ran]
    exact kept
  | commit len =>
    change (state.step (.commit len)).Sound max_datagram (if len ≤ max_datagram then none else written) ∧ _
    by_cases allowed : len ≤ max_datagram ∧ state.ring.slotActive = true
    · obtain ⟨next,ran,kept,others,_⟩ := commit_step sound documented allowed.2 allowed.1
      rw [returns ran,if_pos allowed.1]
      exact ⟨kept,others⟩
    · rw [panicked sound allowed]
      refine ⟨?_,fun _ _ _ held => ⟨held,rfl⟩⟩
      by_cases within : len ≤ max_datagram
      · rw [if_pos within]
        obtain ⟨_,_,rfl⟩ := sound.idle (Bool.eq_false_iff.mpr fun active => allowed ⟨within,active⟩)
        exact sound
      · rw [if_neg within]
        exact sound

-- A whole run: what the slot holds follows from the calls, and no commit that is not
-- dropped changes.
theorem run_sound (documented : crate.Documented) (actions : List RecvAction) :
    (state.run actions).Sound max_datagram (actions.foldl (slotWritten max_datagram) written) ∧
      ∀ index bytes, RecvAction.drop index ∉ actions → state.held[index]? = some (some bytes) →
        (state.run actions).held[index]? = some (some bytes) ∧ read (state.run actions).memory bytes = read state.memory bytes := by
  induction actions generalizing state written with
  | nil => exact ⟨sound,fun _ _ _ held => ⟨held,rfl⟩⟩
  | cons action actions ih =>
    obtain ⟨stepped,kept⟩ := step_sound sound documented action
    obtain ⟨ran,others⟩ := ih stepped
    refine ⟨ran,fun index bytes spared held => ?_⟩
    obtain ⟨still_held,same⟩ := kept index bytes (fun dropped => spared (dropped ▸ List.mem_cons_self)) held
    obtain ⟨last_held,last_same⟩ := others index bytes (fun dropped => spared (List.mem_cons_of_mem _ dropped)) still_held
    exact ⟨last_held,last_same.trans same⟩

end Receiving

theorem committed_bytes_stay {crate : BytesCrate} {ring : RecvRing crate} (documented : crate.Documented)
    (built : RecvRing.new crate chunk_size max_datagram = some ring) (memory : Memory UInt8) (actions later : List RecvAction) :
    let state := (Receiving.start memory ring).run actions
    let after := state.run later
    (state.act .recvSlot).isSome ∧
      (∀ written len, lastWritten max_datagram actions = some written → len ≤ max_datagram →
        ∃ bytes next, state.act (.commit len) = some next ∧ next.held = state.held ++ [some bytes] ∧
          read next.memory bytes = written.take len) ∧
      ∀ index bytes, state.held[index]? = some (some bytes) → RecvAction.drop index ∉ later →
        after.held[index]? = some (some bytes) ∧ read after.memory bytes = read state.memory bytes := by
  intro state after
  obtain ⟨sound,_⟩ := Receiving.run_sound (Receiving.start_sound documented built memory) documented actions
  refine ⟨?_,fun written len opened within => ?_,fun index bytes held spared => ?_⟩
  · obtain ⟨next,ran,_⟩ := Receiving.recvSlot_step sound documented
    rw [ran]
    rfl
  · have active : state.ring.slotActive = true := by
      by_contra idle
      have none_open := (sound.idle (Bool.eq_false_iff.mpr idle)).2.2
      change lastWritten max_datagram actions = none at none_open
      rw [none_open] at opened
      cases opened
    obtain ⟨full,_,slot_bytes⟩ := sound.active active
    obtain ⟨next,ran,_,_,same,held⟩ := Receiving.commit_step sound documented active within
    refine ⟨_,next,ran,held,?_⟩
    rw [same,read_take _ _ (Nat.le_trans within (Nat.le_of_eq full.symm))]
    exact congrArg (List.take len) (Option.some.inj (slot_bytes.symm.trans opened))
  · exact (Receiving.run_sound sound documented later).2 index bytes spared held

-- A crate with the documented behaviour: its chunks are numbered upwards, an
-- allocation is as large as requested, and a buffer that is too small grows in place.
def plainBytes : BytesCrate where
  BytesMut := {view : View // view.len ≤ view.capacity}
  view := Subtype.val
  new := ⟨⟨0,0,0,0⟩,Nat.le_refl 0⟩
  withCapacity live requested := ⟨⟨live.foldr max 0 + 1,0,0,requested⟩,Nat.zero_le requested⟩
  truncate buffer len := ⟨{buffer.1 with len := min len buffer.1.len},Nat.le_trans (Nat.min_le_right _ _) buffer.2⟩
  resize memory buffer new_len value :=
    (fill memory ⟨buffer.1.chunk,buffer.1.start + buffer.1.len,new_len - buffer.1.len⟩ value,
      ⟨{buffer.1 with len := new_len, capacity := max new_len buffer.1.capacity},Nat.le_max_left _ _⟩)
  splitTo buffer count :=
    if inside : count ≤ buffer.1.len then
      some (⟨{buffer.1 with len := count},Nat.le_trans inside buffer.2⟩,
        ⟨⟨buffer.1.chunk,buffer.1.start + count,buffer.1.len - count,buffer.1.capacity - count⟩,
          Nat.sub_le_sub_right buffer.2 count⟩)
    else none
  freeze buffer := buffer.1.slice

theorem le_chunks (chunk : Nat) (live : List Nat) (present : chunk ∈ live) : chunk ≤ live.foldr max 0 := by
  induction live with
  | nil => cases present
  | cons first rest ih =>
    rcases List.mem_cons.mp present with rfl | later
    · exact Nat.le_max_left _ _
    · exact Nat.le_trans (ih later) (Nat.le_max_right _ _)

theorem plainBytes_documented : plainBytes.Documented where
  within buffer := buffer.2
  created := rfl
  allocated live requested := ⟨fun present => Nat.not_succ_le_self _ (le_chunks _ live present),rfl,Nat.le_refl requested⟩
  truncated _ _ := rfl
  resized _ buffer new_len _ _ room :=
    ⟨rfl,congrArg (View.mk buffer.1.chunk buffer.1.start new_len) (Nat.max_eq_right room)⟩
  split _ _ inside := ⟨_,_,dif_pos inside,rfl,rfl⟩
  frozen _ := rfl

theorem committed_bytes_stay_two :
    let state := (Receiving.start (fun _ _ => 255) ⟨plainBytes.new,4,2,false,by decide⟩).run
      [.recvSlot,.write 0 9,.recvSlot,.write 0 7]
    ∃ bytes next, state.act (.commit 1) = some next ∧ next.held = state.held ++ [some bytes] ∧ read next.memory bytes = [7] :=
  (committed_bytes_stay plainBytes_documented (dif_pos (by decide)) (fun _ _ => 255)
    [.recvSlot,.write 0 9,.recvSlot,.write 0 7] []).2.1 [7,0] 1 rfl (by decide)

end NwNetwork.Gridmate
