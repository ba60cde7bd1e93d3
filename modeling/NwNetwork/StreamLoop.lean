import NwNetwork.WireReader

namespace WireReader
variable {ε α σ τ β : Type}

-- What a reader hands back is no longer than what it was given, or is shorter.
def Keeps (read : Reader ε α) : Prop :=
  ∀ ⦃bytes value left⦄, read bytes = .ok (value,left) → left.length ≤ bytes.length

def Shortens (read : Reader ε α) : Prop :=
  ∀ ⦃bytes value left⦄, read bytes = .ok (value,left) → left.length < bytes.length

theorem Shortens.keeps {read : Reader ε α} (shortens : Shortens read) : Keeps read := fun _ _ _ ran => Nat.le_of_lt (shortens ran)

theorem keeps_pure (value : α) : Keeps (pure value : Reader ε α) := by
  intro bytes _ left ran
  cases ran
  exact Nat.le_refl _

theorem shortens_fail (error : ε) : Shortens (Reader.fail error : Reader ε α) := by
  intro _ _ _ ran
  cases ran

theorem Keeps.bind {read : Reader ε α} {next : α → Reader ε β} (first : Keeps read) (others : ∀ value, Keeps (next value)) :
    Keeps (read >>= next) := by
  intro bytes value left ran
  obtain ⟨middle,rest,read_first,read_next⟩ := Reader.bind_eq_ok.mp ran
  exact Nat.le_trans (others middle read_next) (first read_first)

theorem Shortens.bind {read : Reader ε α} {next : α → Reader ε β} (first : Shortens read)
    (others : ∀ value, Keeps (next value)) : Shortens (read >>= next) := by
  intro bytes value left ran
  obtain ⟨middle,rest,read_first,read_next⟩ := Reader.bind_eq_ok.mp ran
  exact Nat.lt_of_le_of_lt (others middle read_next) (first read_first)

theorem Keeps.bind_shortens {read : Reader ε α} {next : α → Reader ε β} (first : Keeps read)
    (others : ∀ value, Shortens (next value)) : Shortens (read >>= next) := by
  intro bytes value left ran
  obtain ⟨middle,rest,read_first,read_next⟩ := Reader.bind_eq_ok.mp ran
  exact Nat.lt_of_lt_of_le (others middle read_next) (first read_first)

-- A loop that steps while unread bytes are left. It stops at the first step that
-- fails, with the state before that step; `none` is a loop that was cut short
-- because its fuel ran out.
def stepWhileUnread (step : σ → Reader ε σ) : Nat → σ → Bytes → Option (σ × Option ε)
  | _,state,[] => some (state,none)
  | 0,_,_ :: _ => none
  | fuel+1,state,byte :: rest =>
    match step state (byte :: rest) with
    | .ok (next,left) => stepWhileUnread step fuel next left
    | .error error => some (state,some error)

variable {step : σ → Reader ε σ}

@[simp] theorem loop_empty (fuel : Nat) (state : σ) : stepWhileUnread step fuel state [] = some (state,none) := by
  cases fuel <;> rfl

theorem loop_stepped (unread : bytes ≠ []) (ran : step state bytes = .ok (next,left)) :
    stepWhileUnread step (fuel+1) state bytes = stepWhileUnread step fuel next left := by
  cases bytes with
  | nil => exact absurd rfl unread
  | cons byte rest => simp only [stepWhileUnread,ran]

theorem loop_stopped (unread : bytes ≠ []) (failed : step state bytes = .error error) :
    stepWhileUnread step (fuel+1) state bytes = some (state,some error) := by
  cases bytes with
  | nil => exact absurd rfl unread
  | cons byte rest => simp only [stepWhileUnread,failed]

-- A step that always takes a byte ends the loop within as many steps as there are bytes.
theorem loop_ends (shortens : ∀ state, Shortens (step state)) (enough : bytes.length ≤ fuel) :
    ∃ ended, stepWhileUnread step fuel state bytes = some ended := by
  induction fuel generalizing state bytes with
  | zero =>
    have empty : bytes = [] := List.eq_nil_of_length_eq_zero (Nat.le_zero.mp enough)
    rw [empty]
    exact ⟨_,loop_empty 0 state⟩
  | succ fuel ih =>
    by_cases unread : bytes = []
    · rw [unread]
      exact ⟨_,loop_empty _ state⟩
    · cases ran : step state bytes with
      | error error => exact ⟨_,loop_stopped unread ran⟩
      | ok pair =>
        obtain ⟨next,left⟩ := pair
        have shorter : left.length ≤ fuel := Nat.le_of_lt_succ (Nat.lt_of_lt_of_le (shortens state ran) enough)
        obtain ⟨ended,rest⟩ := ih shorter
        exact ⟨ended,(loop_stepped unread ran).trans rest⟩

-- What every step preserves holds of the state that the loop ends with.
theorem loop_keeps (invariant : σ → Prop) (steps : ∀ {state bytes next left}, invariant state →
    step state bytes = .ok (next,left) → invariant next) (start : invariant state)
    (ended : stepWhileUnread step fuel state bytes = some (final,stop)) : invariant final := by
  induction fuel generalizing state bytes with
  | zero =>
    cases bytes with
    | nil => cases ended; exact start
    | cons byte rest => cases ended
  | succ fuel ih =>
    cases bytes with
    | nil => cases ended; exact start
    | cons byte rest =>
      cases ran : step state (byte :: rest) with
      | error error =>
        rw [loop_stopped (List.cons_ne_nil _ _) ran] at ended
        cases ended
        exact start
      | ok pair =>
        rw [loop_stepped (List.cons_ne_nil _ _) ran] at ended
        exact ih (steps start ran) ended

theorem length_le_flatMap {write : β → Bytes} (values : List β) (nonempty : ∀ value ∈ values, write value ≠ []) :
    values.length ≤ (values.flatMap write).length := by
  induction values with
  | nil => exact Nat.zero_le _
  | cons value values ih =>
    have first := List.length_pos_iff.mpr (nonempty value List.mem_cons_self)
    have others := ih fun v present => nonempty v (List.mem_cons_of_mem _ present)
    simp only [List.flatMap_cons,List.length_append,List.length_cons]
    omega

-- Encodings that the step takes one by one are read to the last: `ready` says in
-- which states the step takes the encodings that are still to come.
theorem loop_reads_all {write : β → Bytes} {ready : List β → σ → Prop}
    (taken : ∀ {value others state}, ready (value :: others) state →
      ∀ rest, ∃ next, step state (write value ++ rest) = .ok (next,rest) ∧ ready others next)
    (values : List β) (nonempty : ∀ value ∈ values, write value ≠ []) (start : ready values state) :
    ∃ final, stepWhileUnread step (values.flatMap write).length state (values.flatMap write) = some (final,none) ∧
      ready [] final := by
  have enough := length_le_flatMap values nonempty
  generalize (values.flatMap write).length = fuel at enough
  induction values generalizing state fuel with
  | nil => exact ⟨state,loop_empty _ _,start⟩
  | cons value values ih =>
    obtain ⟨fuel,rfl⟩ : ∃ smaller, fuel = smaller+1 := ⟨fuel - 1,by rw [List.length_cons] at enough; omega⟩
    obtain ⟨next,ran,linked⟩ := taken start (values.flatMap write)
    obtain ⟨final,ended,finished⟩ := ih (fun v present => nonempty v (List.mem_cons_of_mem _ present)) linked fuel
      (Nat.le_of_succ_le_succ enough)
    have unread : write value ++ values.flatMap write ≠ [] := fun empty =>
      nonempty value List.mem_cons_self (List.append_eq_nil_iff.mp empty).1
    exact ⟨final,(loop_stepped unread ran).trans ended,finished⟩

-- Two loops over the same bytes: if the second takes every step that the first
-- takes, then it reads to the end whatever the first reads to the end.
theorem loop_simulates {ε' : Type} {step' : τ → Reader ε' τ} {related : σ → τ → Prop}
    (steps : ∀ {state other bytes next left}, related state other → step state bytes = .ok (next,left) →
      ∃ next', step' other bytes = .ok (next',left) ∧ related next next')
    (start : related state other) (ended : stepWhileUnread step fuel state bytes = some (final,none)) :
    ∃ final', stepWhileUnread step' fuel other bytes = some (final',none) ∧ related final final' := by
  induction fuel generalizing state other bytes with
  | zero =>
    cases bytes with
    | nil => cases ended; exact ⟨other,rfl,start⟩
    | cons byte rest => cases ended
  | succ fuel ih =>
    cases bytes with
    | nil => cases ended; exact ⟨other,rfl,start⟩
    | cons byte rest =>
      cases ran : step state (byte :: rest) with
      | error error =>
        rw [loop_stopped (List.cons_ne_nil _ _) ran] at ended
        cases ended
      | ok pair =>
        obtain ⟨next,left⟩ := pair
        rw [loop_stepped (List.cons_ne_nil _ _) ran] at ended
        obtain ⟨next',ran',linked⟩ := steps start ran
        obtain ⟨final',rest_ended,final_linked⟩ := ih linked ended
        exact ⟨final',(loop_stepped (List.cons_ne_nil _ _) ran').trans rest_ended,final_linked⟩

end WireReader
