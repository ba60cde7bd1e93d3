import Mathlib.Data.List.Basic

namespace StateRuns
variable {σ α : Type}

-- The states on the way of a run of a machine whose actions are given.
def Reached (step : σ → α → σ) (start : σ) (actions : List α) (state : σ) : Prop :=
  ∃ before after, actions = before ++ after ∧ state = before.foldl step start

-- What is asked of every action in the state in which it is taken.
def EachAction (step : σ → α → σ) (start : σ) (actions : List α) (admissible : σ → α → Prop) : Prop :=
  ∀ before action after, actions = before ++ action :: after → admissible (before.foldl step start) action

variable {step : σ → α → σ} {invariant good : σ → Prop} {admissible : σ → α → Prop}

theorem each_nil : EachAction step start [] admissible := by
  intro before action after split
  cases before <;> cases split

theorem each_cons : EachAction step start (action :: actions) admissible ↔
    admissible start action ∧ EachAction step (step start action) actions admissible := by
  constructor
  · intro each
    exact ⟨each [] action actions rfl,fun before next after split => each (action :: before) next after (congrArg _ split)⟩
  · intro both before next after split
    cases before with
    | nil => cases split; exact both.1
    | cons first before =>
      obtain ⟨rfl,rest⟩ := List.cons.inj split
      exact both.2 before next after rest

theorem each_imp (implies : ∀ {state action}, admissible state action → wanted state action)
    (each : EachAction step start actions admissible) : EachAction step start actions wanted :=
  fun before action after split => implies (each before action after split)

theorem reached_cons : Reached step start (action :: actions) state ↔
    state = start ∨ Reached step (step start action) actions state := by
  constructor
  · rintro ⟨before,after,split,rfl⟩
    cases before with
    | nil => exact .inl rfl
    | cons first before =>
      obtain ⟨rfl,rest⟩ := List.cons.inj split
      exact .inr ⟨before,after,rest,rfl⟩
  · rintro (rfl | ⟨before,after,rfl,rfl⟩)
    · exact ⟨[],action :: actions,rfl,rfl⟩
    · exact ⟨action :: before,after,rfl,rfl⟩

theorem reached_start : Reached step start actions start := ⟨[],actions,rfl,rfl⟩

-- An invariant that admissible actions keep holds in every state of a run of them.
theorem reached_keeps (keeps : ∀ {state action}, invariant state → admissible state action → invariant (step state action))
    (holds : invariant start) (each : EachAction step start actions admissible)
    (reached : Reached step start actions state) : invariant state := by
  induction actions generalizing start with
  | nil =>
    obtain ⟨before,after,split,rfl⟩ := reached
    obtain ⟨rfl,_⟩ := List.append_eq_nil_iff.mp split.symm
    exact holds
  | cons action actions ih =>
    obtain ⟨first,rest⟩ := each_cons.mp each
    rcases reached_cons.mp reached with rfl | later
    · exact holds
    · exact ih (keeps holds first) rest later

-- Where every other action breaks what is wanted of the states, a run is good
-- throughout exactly when all its actions are admissible. Only the actions that
-- can be given are looked at.
theorem reached_iff_given
    (keeps : ∀ {state action}, invariant state → admissible state action → invariant (step state action))
    (sound : ∀ {state}, invariant state → good state)
    (breaks : ∀ {state action}, invariant state → given state action → ¬admissible state action →
      ¬good (step state action))
    (holds : invariant start) (each : EachAction step start actions given) :
    (∀ state, Reached step start actions state → good state) ↔ EachAction step start actions admissible := by
  constructor
  · intro all
    induction actions generalizing start with
    | nil => exact each_nil
    | cons action actions ih =>
      obtain ⟨can,others⟩ := each_cons.mp each
      have next := all (step start action) (reached_cons.mpr (.inr reached_start))
      have first : admissible start action := by
        by_contra refused
        exact breaks holds can refused next
      exact each_cons.mpr ⟨first,ih (keeps holds first) others fun state later => all state (reached_cons.mpr (.inr later))⟩
  · intro admitted state reached
    exact sound (reached_keeps keeps holds admitted reached)

theorem each_any : EachAction step start actions fun _ _ => True := fun _ _ _ _ => trivial

theorem reached_iff (keeps : ∀ {state action}, invariant state → admissible state action → invariant (step state action))
    (sound : ∀ {state}, invariant state → good state)
    (breaks : ∀ {state action}, invariant state → ¬admissible state action → ¬good (step state action))
    (holds : invariant start) :
    (∀ state, Reached step start actions state → good state) ↔ EachAction step start actions admissible :=
  reached_iff_given keeps sound (fun kept _ refused => breaks kept refused) holds each_any

end StateRuns
