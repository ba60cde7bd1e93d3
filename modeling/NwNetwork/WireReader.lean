import Mathlib.Algebra.Ring.Nat
import Mathlib.Data.List.Basic

namespace WireReader

abbrev Bytes := List UInt8

-- A reader takes a prefix of the bytes it is given and hands back the rest,
-- or fails with an error of the format it reads.
def Reader (ε α : Type) := Bytes → Except ε (α × Bytes)

namespace Reader
variable {ε α β : Type}

def fail (error : ε) : Reader ε α := fun _ => .error error

instance : Monad (Reader ε) where
  pure a := fun bytes => .ok (a,bytes)
  bind read next := fun bytes =>
    match read bytes with
    | .ok (a,rest) => next a rest
    | .error error => .error error

@[simp] theorem pure_run (a : α) (bytes : Bytes) : (pure a : Reader ε α) bytes = .ok (a,bytes) := rfl

theorem bind_run (read : Reader ε α) (next : α → Reader ε β) (bytes : Bytes) :
    (read >>= next) bytes = match read bytes with
      | .ok (a,rest) => next a rest
      | .error error => .error error := rfl

theorem bind_ok {read : Reader ε α} {next : α → Reader ε β} (ran : read bytes = .ok (a,rest)) :
    (read >>= next) bytes = next a rest := by
  rw [bind_run,ran]

theorem bind_error {read : Reader ε α} {next : α → Reader ε β} (failed : read bytes = .error error) :
    (read >>= next) bytes = .error error := by
  rw [bind_run,failed]

theorem bind_eq_ok {read : Reader ε α} {next : α → Reader ε β} :
    (read >>= next) bytes = .ok result ↔
      ∃ a rest, read bytes = .ok (a,rest) ∧ next a rest = .ok result := by
  rw [bind_run]
  cases ran : read bytes with
  | error error => simp
  | ok pair => obtain ⟨a,rest⟩ := pair; simp

theorem bind_eq_error {read : Reader ε α} {next : α → Reader ε β} :
    (read >>= next) bytes = .error error ↔
      read bytes = .error error ∨ ∃ a rest, read bytes = .ok (a,rest) ∧ next a rest = .error error := by
  rw [bind_run]
  cases ran : read bytes with
  | error other => simp
  | ok pair => obtain ⟨a,rest⟩ := pair; simp

instance : LawfulMonad (Reader ε) := LawfulMonad.mk' _
  (fun read => by
    funext bytes
    show (read >>= fun a => pure (id a)) bytes = read bytes
    rw [bind_run]
    cases read bytes with
    | error error => rfl
    | ok pair => rfl)
  (fun a next => rfl)
  (fun read next last => by
    funext bytes
    simp only [bind_run]
    cases read bytes with
    | error error => rfl
    | ok pair => rfl)

-- Reads the same thing a given number of times, keeping the results in order.
def times (read : Reader ε α) : Nat → Reader ε (List α)
  | 0 => pure []
  | count+1 => do
    let value ← read
    let values ← times read count
    pure (value :: values)

theorem times_none (read : Reader ε α) (next : List α → Reader ε β) : times read 0 >>= next = next [] := rfl

theorem times_next (read : Reader ε α) (count : Nat) (next : List α → Reader ε β) :
    times read (count+1) >>= next = read >>= fun value => times read count >>= fun values => next (value :: values) := by
  simp only [times,bind_assoc,pure_bind]

end Reader

-- The bytes written for a value are read back to it from any longer buffer,
-- and exactly they are consumed.
def ReadsBack (write : α → Bytes) (read : Reader ε α) (value : α) : Prop :=
  ∀ rest, read (write value ++ rest) = .ok (value,rest)

-- The other direction: whatever the reader takes is what the writer of its value writes.
def ReadsOnly (write : α → Bytes) (read : Reader ε α) : Prop :=
  ∀ ⦃bytes value rest⦄, read bytes = .ok (value,rest) → bytes = write value ++ rest

-- A self-delimiting format for all values of a type, with its law.
structure Codec (ε α : Type) where
  write : α → Bytes
  read : Reader ε α
  readsBack : ∀ value, ReadsBack write read value

namespace ReadsBack
variable {ε α β : Type} {write : α → Bytes} {read : Reader ε α}

theorem bind (back : ReadsBack write read value) (next : α → Reader ε β) (rest : Bytes) :
    (read >>= next) (write value ++ rest) = next value rest :=
  Reader.bind_ok (back rest)

-- What is read back says where it ends, so that two writings that go on to the
-- same bytes are writings of one value.
theorem prefix_free (left : ReadsBack write read a) (right : ReadsBack write read b)
    (same : write a ++ restA = write b ++ restB) : a = b ∧ restA = restB := by
  have ran := left restA
  rw [same,right restB] at ran
  simp only [Except.ok.injEq,Prod.mk.injEq] at ran
  exact ⟨ran.1.symm,ran.2.symm⟩

theorem times_flatMap (values : List α) (back : ∀ value ∈ values, ReadsBack write read value)
    (rest : Bytes) : Reader.times read values.length (values.flatMap write ++ rest) = .ok (values,rest) := by
  induction values generalizing rest with
  | nil => rfl
  | cons value values ih =>
    have first := back value List.mem_cons_self
    have others := ih (fun v present => back v (List.mem_cons_of_mem _ present)) rest
    simp only [List.length_cons,List.flatMap_cons,List.append_assoc,Reader.times]
    rw [first.bind,Reader.bind_ok others]
    rfl

end ReadsBack
end WireReader
