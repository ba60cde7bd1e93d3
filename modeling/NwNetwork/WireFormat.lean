import NwNetwork.WireReader

namespace WireReader

-- A writer that may refuse a value, with the reader of what it writes.
structure WireFormat (ε α : Type) where
  write : α → Option Bytes
  read : Reader ε α

-- A tuple whose members are described one by one.
def Tuple {M : Type u} (Value : M → Type) : List M → Type
  | [] => Unit
  | m :: members => Value m × Tuple Value members

namespace Tuple
variable {M : Type u} {Value Context : M → Type}

def map (change : (m : M) → Value m → Context m) : (members : List M) → Tuple Value members → Tuple Context members
  | [],_ => ()
  | m :: members,values => (change m values.1,map change members values.2)

def All (holds : (m : M) → Value m → Prop) : (members : List M) → Tuple Value members → Prop
  | [],_ => True
  | m :: members,values => holds m values.1 ∧ All holds members values.2

theorem All.imp {holds others : (m : M) → Value m → Prop} {members : List M} {values : Tuple Value members}
    (all : All holds members values) (implies : ∀ m ∈ members, ∀ value, holds m value → others m value) :
    All others members values := by
  induction members with
  | nil => trivial
  | cons m members ih =>
    obtain ⟨first,rest⟩ := all
    exact ⟨implies m List.mem_cons_self _ first,ih rest fun n present => implies n (List.mem_cons_of_mem _ present)⟩

theorem all_and {one two : (m : M) → Value m → Prop} {members : List M} {values : Tuple Value members} :
    All (fun m value => one m value ∧ two m value) members values ↔ All one members values ∧ All two members values := by
  induction members with
  | nil => exact ⟨fun _ => ⟨trivial,trivial⟩,fun _ => trivial⟩
  | cons m members ih =>
    unfold All
    rw [ih]
    exact and_and_and_comm

end Tuple

namespace WireFormat
variable {ε α β : Type} {format : WireFormat ε α}

-- The value is written, and read back from its bytes with any others behind them.
def RoundTrips (format : WireFormat ε α) (value : α) : Prop :=
  ∃ bytes, format.write value = some bytes ∧ ∀ rest, format.read (bytes ++ rest) = .ok (value,rest)

-- Whatever is read is written as the bytes it was read from.
def Rewrites (format : WireFormat ε α) : Prop :=
  ∀ ⦃bytes value rest⦄, format.read bytes = .ok (value,rest) →
    ∃ taken, format.write value = some taken ∧ bytes = taken ++ rest

def unit : WireFormat ε Unit := ⟨fun _ => some [],pure ()⟩

def pair (first : WireFormat ε α) (second : WireFormat ε β) : WireFormat ε (α × β) where
  write value := do
    let front ← first.write value.1
    let back ← second.write value.2
    pure (front ++ back)
  read := do
    let a ← first.read
    let b ← second.read
    pure (a,b)

-- A value that is left out where it is not present.
def present (here : Bool) (format : WireFormat ε α) (absent : α) : WireFormat ε α where
  write value := if here then format.write value else some []
  read := if here then format.read else pure absent

def writeAll (format : WireFormat ε α) : List α → Option Bytes
  | [] => some []
  | value :: values => do
    let front ← format.write value
    let back ← writeAll format values
    pure (front ++ back)

theorem unit_roundTrips : (unit : WireFormat ε Unit).RoundTrips () := ⟨[],rfl,fun _ => rfl⟩

theorem unit_rewrites : (unit : WireFormat ε Unit).Rewrites := by
  intro bytes value rest ran
  cases ran
  exact ⟨[],rfl,rfl⟩

theorem pair_roundTrips {first : WireFormat ε α} {second : WireFormat ε β} (front : first.RoundTrips a)
    (back : second.RoundTrips b) : (pair first second).RoundTrips (a,b) := by
  obtain ⟨one,wrote_one,read_one⟩ := front
  obtain ⟨two,wrote_two,read_two⟩ := back
  refine ⟨one ++ two,?_,?_⟩
  · simp [pair,wrote_one,wrote_two]
  · intro rest
    have first_read := read_one (two ++ rest)
    rw [← List.append_assoc] at first_read
    exact (Reader.bind_ok first_read).trans (Reader.bind_ok (read_two rest))

theorem pair_rewrites {first : WireFormat ε α} {second : WireFormat ε β} (front : first.Rewrites) (back : second.Rewrites) :
    (pair first second).Rewrites := by
  intro bytes value rest ran
  obtain ⟨a,middle,read_a,ran⟩ := Reader.bind_eq_ok.mp ran
  obtain ⟨b,last,read_b,done⟩ := Reader.bind_eq_ok.mp ran
  cases done
  obtain ⟨one,wrote_one,rfl⟩ := front read_a
  obtain ⟨two,wrote_two,rfl⟩ := back read_b
  exact ⟨one ++ two,by simp [pair,wrote_one,wrote_two],(List.append_assoc _ _ _).symm⟩

theorem present_roundTrips (back : here = true → format.RoundTrips value) (left_out : here = false → value = absent) :
    (present here format absent).RoundTrips value := by
  cases here with
  | true => exact back rfl
  | false =>
    rw [left_out rfl]
    exact ⟨[],rfl,fun _ => rfl⟩

theorem times_roundTrips {values : List α} (all : ∀ value ∈ values, format.RoundTrips value) :
    ∃ bytes, format.writeAll values = some bytes ∧
      ∀ rest, Reader.times format.read values.length (bytes ++ rest) = .ok (values,rest) := by
  induction values with
  | nil => exact ⟨[],rfl,fun _ => rfl⟩
  | cons value values ih =>
    obtain ⟨one,wrote_one,read_one⟩ := all value List.mem_cons_self
    obtain ⟨others,wrote_others,read_others⟩ := ih fun v later => all v (List.mem_cons_of_mem _ later)
    refine ⟨one ++ others,by simp [writeAll,wrote_one,wrote_others],?_⟩
    intro rest
    have first_read := read_one (others ++ rest)
    rw [← List.append_assoc] at first_read
    exact (Reader.bind_ok first_read).trans (Reader.bind_ok (read_others rest))

section Sequences
variable {M : Type u} {Value Context : M → Type} {members : List M}

-- The members of a tuple one behind the other.
def sequence (format : (m : M) → WireFormat ε (Value m)) : (members : List M) → WireFormat ε (Tuple Value members)
  | [] => unit
  | m :: members => pair (format m) (sequence format members)

-- The same where the format of a member is chosen by what goes before the tuple.
def sequenceBy (format : (m : M) → Context m → WireFormat ε (Value m)) :
    (members : List M) → Tuple Context members → WireFormat ε (Tuple Value members)
  | [],_ => unit
  | m :: members,contexts => pair (format m contexts.1) (sequenceBy format members contexts.2)

theorem sequence_roundTrips {format : (m : M) → WireFormat ε (Value m)} {values : Tuple Value members}
    (all : values.All (fun m value => (format m).RoundTrips value)) : (sequence format members).RoundTrips values := by
  induction members with
  | nil => exact unit_roundTrips
  | cons m members ih => exact pair_roundTrips all.1 (ih all.2)

theorem sequenceBy_roundTrips {format : (m : M) → Context m → WireFormat ε (Value m)} {context : (m : M) → Value m → Context m}
    {values : Tuple Value members} (all : values.All (fun m value => (format m (context m value)).RoundTrips value)) :
    (sequenceBy format members (values.map context)).RoundTrips values := by
  induction members with
  | nil => exact unit_roundTrips
  | cons m members ih => exact pair_roundTrips all.1 (ih all.2)

theorem sequence_rewrites {format : (m : M) → WireFormat ε (Value m)} (all : ∀ m ∈ members, (format m).Rewrites) :
    (sequence format members).Rewrites := by
  induction members with
  | nil => exact unit_rewrites
  | cons m members ih =>
    exact pair_rewrites (all m List.mem_cons_self) (ih fun n later => all n (List.mem_cons_of_mem _ later))

-- What holds of every member that is read holds throughout the tuple.
theorem sequence_reads {format : (m : M) → WireFormat ε (Value m)} {holds : (m : M) → Value m → Prop}
    (each : ∀ m ∈ members, ∀ {bytes value rest}, (format m).read bytes = .ok (value,rest) → holds m value)
    {values : Tuple Value members} (ran : (sequence format members).read bytes = .ok (values,rest)) :
    values.All holds := by
  induction members generalizing bytes with
  | nil => trivial
  | cons m members ih =>
    obtain ⟨value,middle,read_one,ran⟩ := Reader.bind_eq_ok.mp ran
    obtain ⟨others,last,read_others,done⟩ := Reader.bind_eq_ok.mp ran
    cases done
    exact ⟨each m List.mem_cons_self read_one,ih (fun n later => each n (List.mem_cons_of_mem _ later)) read_others⟩

end Sequences
end WireFormat
end WireReader
