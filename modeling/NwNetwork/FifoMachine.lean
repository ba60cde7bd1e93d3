import Mathlib.Data.List.Basic

-- A machine that takes its inputs into a queue and gives out results one at a
-- time. Whether a result is ready may depend on the front of the queue only:
-- inputs that come later never change a result that was ready before.
structure FifoMachine (S α β : Type) where
  push : S → List α → S
  next : S → Option (β × S)
  size : S → Nat
  push_nil : ∀ s, push s [] = s
  push_push : ∀ s first second, push (push s first) second = push s (first ++ second)
  next_push : ∀ {s b after}, next s = some (b,after) → ∀ more, next (push s more) = some (b,push after more)
  next_size : ∀ {s b after}, next s = some (b,after) → size after < size s

namespace FifoMachine
variable {S α β : Type} (m : FifoMachine S α β)

def drainFuel : Nat → S → List β × S
  | 0,s => ([],s)
  | fuel+1,s =>
    match m.next s with
    | none => ([],s)
    | some (b,after) => (b :: (drainFuel fuel after).1,(drainFuel fuel after).2)

def drain (s : S) : List β × S := m.drainFuel (m.size s) s

theorem drainFuel_stuck (stuck : m.next s = none) (fuel : Nat) : m.drainFuel fuel s = ([],s) := by
  cases fuel with
  | zero => rfl
  | succ fuel => simp only [drainFuel,stuck]

-- Any two bounds on the size of the queue are enough rounds.
theorem drainFuel_enough {fuel other : Nat} (enough : m.size s ≤ fuel) (enoughOther : m.size s ≤ other) :
    m.drainFuel fuel s = m.drainFuel other s := by
  induction fuel generalizing s other with
  | zero =>
    cases ran : m.next s with
    | none => rw [m.drainFuel_stuck ran,m.drainFuel_stuck ran]
    | some result => have smaller := m.next_size ran; omega
  | succ fuel ih =>
    cases ran : m.next s with
    | none => rw [m.drainFuel_stuck ran,m.drainFuel_stuck ran]
    | some result =>
      have smaller := m.next_size ran
      cases other with
      | zero => omega
      | succ other =>
        have rest := @ih result.2 other (by omega) (by omega)
        simp only [drainFuel,ran,rest]

theorem drain_stuck (stuck : m.next s = none) : m.drain s = ([],s) := m.drainFuel_stuck stuck _

theorem drain_step (ran : m.next s = some (b,after)) :
    m.drain s = (b :: (m.drain after).1,(m.drain after).2) := by
  have smaller := m.next_size ran
  have one : m.drain s = m.drainFuel (m.size s + 1) s :=
    m.drainFuel_enough (Nat.le_refl _) (Nat.le_succ _)
  have rest : m.drainFuel (m.size s) after = m.drain after :=
    m.drainFuel_enough (Nat.le_of_lt smaller) (Nat.le_refl _)
  rw [one]
  simp only [drainFuel,ran,rest]

-- Draining early does not lose anything: the results of a drain and of a second
-- one after more inputs are those of a single drain after all inputs.
theorem drain_push (s : S) (more : List α) :
    (m.drain s).1 ++ (m.drain (m.push (m.drain s).2 more)).1 = (m.drain (m.push s more)).1 := by
  induction rounds : m.size s using Nat.strongRecOn generalizing s with
  | ind rounds ih =>
    subst rounds
    cases ran : m.next s with
    | none => rw [m.drain_stuck ran,List.nil_append]
    | some result =>
      obtain ⟨b,after⟩ := result
      have rest := ih _ (m.next_size ran) after rfl
      rw [m.drain_step ran,m.drain_step (m.next_push ran more),List.cons_append,rest]

theorem drain_drained (s : S) : (m.drain (m.drain s).2).1 = [] := by
  have again := m.drain_push s []
  rw [m.push_nil,m.push_nil] at again
  exact List.append_cancel_left (again.trans (List.append_nil _).symm)

-- What every result keeps, together with all results so far, a drain keeps.
theorem drain_keeps {invariant : List β → S → Prop}
    (keeps : ∀ {out s b after}, m.next s = some (b,after) → invariant out s → invariant (out ++ [b]) after)
    (holds : invariant out s) : invariant (out ++ (m.drain s).1) (m.drain s).2 := by
  induction rounds : m.size s using Nat.strongRecOn generalizing out s with
  | ind rounds ih =>
    subst rounds
    cases ran : m.next s with
    | none =>
      rw [m.drain_stuck ran,List.append_nil]
      exact holds
    | some result =>
      obtain ⟨b,after⟩ := result
      have rest := ih _ (m.next_size ran) (keeps ran holds) rfl
      rw [m.drain_step ran]
      simpa using rest

-- An owner feeds inputs and asks for results in any order.
inductive Event (α : Type) where
  | push (a : α)
  | next

def Event.input : Event α → Option α
  | .push a => some a
  | .next => none

def run (s : S) : List (Event α) → List β × S
  | [] => ([],s)
  | .push a :: events => run (m.push s [a]) events
  | .next :: events =>
    match m.next s with
    | none => run s events
    | some (b,after) => (b :: (run after events).1,(run after events).2)

-- The order in which the owner feeds and asks does not matter: what it has got
-- at the end, once the machine is drained, is what one drain gives after all
-- inputs are in the queue.
theorem run_drain (s : S) (events : List (Event α)) :
    (m.run s events).1 ++ (m.drain (m.run s events).2).1 =
      (m.drain (m.push s (events.filterMap Event.input))).1 := by
  induction events generalizing s with
  | nil => simp [run,m.push_nil]
  | cons event events ih =>
    cases event with
    | push a =>
      have rest := ih (m.push s [a])
      rw [m.push_push] at rest
      simpa [run,Event.input] using rest
    | next =>
      cases ran : m.next s with
      | none =>
        rw [List.filterMap_cons_none rfl,←ih s]
        simp [run,ran]
      | some result =>
        obtain ⟨b,after⟩ := result
        have rest := ih after
        have ready := m.next_push ran (events.filterMap Event.input)
        rw [List.filterMap_cons_none rfl,m.drain_step ready,←rest]
        simp [run,ran]

end FifoMachine
