import Mathlib.Data.List.Basic
import Mathlib.Logic.Relation

-- A machine whose actions may be impossible in a state, and what one action is
-- made of: moves that a proof looks at one by one.
namespace PartialRuns
variable {σ α : Type} {step : σ → α → Option σ} {move : σ → σ → Prop} {invariant : σ → Prop}

def run (step : σ → α → Option σ) (start : σ) (actions : List α) : Option σ := actions.foldlM step start

@[simp] theorem run_nil : run step start [] = some start := rfl

theorem run_cons : run step start (action :: actions) = some final ↔
    ∃ middle, step start action = some middle ∧ run step middle actions = some final := by
  unfold run
  rw [List.foldlM_cons]
  exact Option.bind_eq_some_iff

theorem run_append : run step start (before ++ after) = some final ↔
    ∃ middle, run step start before = some middle ∧ run step middle after = some final := by
  induction before generalizing start with
  | nil => simp
  | cons action before ih =>
    rw [List.cons_append,run_cons]
    simp only [run_cons,ih]
    constructor
    · rintro ⟨next,first,middle,front,behind⟩
      exact ⟨middle,⟨next,first,front⟩,behind⟩
    · rintro ⟨middle,⟨next,first,front⟩,behind⟩
      exact ⟨next,first,middle,front,behind⟩

theorem run_keeps (keeps : ∀ {state action next}, step state action = some next → invariant state → invariant next)
    (ran : run step start actions = some final) (holds : invariant start) : invariant final := by
  induction actions generalizing start with
  | nil =>
    cases Option.some.inj ran
    exact holds
  | cons action actions ih =>
    obtain ⟨middle,first,rest⟩ := run_cons.mp ran
    exact ih rest (keeps first holds)

-- What is asked of every action of a run in the state in which it is taken.
def EachStep (step : σ → α → Option σ) (start : σ) (actions : List α) (admissible : σ → α → Prop) : Prop :=
  ∀ before action after state, actions = before ++ action :: after → run step start before = some state →
    admissible state action

theorem each_step_cons {admissible : σ → α → Prop} (each : EachStep step start (action :: actions) admissible) :
    admissible start action ∧
      ∀ {next}, step start action = some next → EachStep step next actions admissible := by
  constructor
  · exact each [] action actions start rfl rfl
  · intro next first before other after state split ran
    exact each (action :: before) other after state (congrArg _ split) (run_cons.mpr ⟨next,first,ran⟩)

theorem run_keeps_admitted {admissible : σ → α → Prop}
    (keeps : ∀ {state action next}, admissible state action → step state action = some next →
      invariant state → invariant next)
    (each : EachStep step start actions admissible) (ran : run step start actions = some final)
    (holds : invariant start) : invariant final := by
  induction actions generalizing start with
  | nil =>
    cases Option.some.inj ran
    exact holds
  | cons action actions ih =>
    obtain ⟨middle,first,rest⟩ := run_cons.mp ran
    obtain ⟨admitted,others⟩ := each_step_cons each
    exact ih (others first) rest (keeps admitted first holds)

-- A property of pairs of states that goes on from one step to the next.
theorem run_relates {related : σ → σ → Prop} (refl : ∀ state, related state state)
    (trans : ∀ {first second third}, related first second → related second third → related first third)
    (steps : ∀ {state action next}, step state action = some next → related state next)
    (ran : run step start actions = some final) : related start final := by
  apply run_keeps _ ran (refl start)
  intro state action next one before
  exact trans before (steps one)

abbrev Moves (move : σ → σ → Prop) : σ → σ → Prop := Relation.ReflTransGen move

theorem moves_keep (keeps : ∀ {state next}, move state next → invariant state → invariant next)
    (moves : Moves move start final) (holds : invariant start) : invariant final := by
  induction moves with
  | refl => exact holds
  | tail _ last ih => exact keeps last ih

theorem moves_relate {related : σ → σ → Prop} (refl : ∀ state, related state state)
    (trans : ∀ {first second third}, related first second → related second third → related first third)
    (steps : ∀ {state next}, move state next → related state next)
    (moves : Moves move start final) : related start final :=
  moves_keep (fun one before => trans before (steps one)) moves (refl start)

theorem run_moves (made : ∀ {state action next}, step state action = some next → Moves move state next)
    (ran : run step start actions = some final) : Moves move start final :=
  run_relates (fun _ => .refl) (fun first second => first.trans second) made ran

end PartialRuns
