import NwNetwork.StreamLoop

namespace RecordStream
open WireReader
variable {ε ε' R I σ : Type}

-- Records one after another, each a header that says how many items follow it.
structure Format (ε R I : Type) where
  record : Reader ε R
  count : R → Nat
  item : R → Reader ε I

-- On a buffer of `total` bytes every record and every item takes a byte at least.
structure Format.Advances (format : Format ε R I) (total : Nat) : Prop where
  record : Shortens format.record
  item : ∀ {record bytes item left}, bytes.length ≤ total → format.item record bytes = .ok (item,left) →
    left.length < bytes.length

-- What is met on the way through the bytes. `pending` is the header of the record
-- once for every item that it still owes, and `stop` the error that ends the way.
inductive Streams (format : Format ε R I) : List R → Bytes → List I → Option ε → Prop where
  | ended : Streams format [] [] [] none
  | entered (unread : bytes ≠ []) (read : format.record bytes = .ok (record,left))
      (rest : Streams format (List.replicate (format.count record) record) left items stop) :
      Streams format [] bytes items stop
  | unreadable (unread : bytes ≠ []) (failed : format.record bytes = .error error) :
      Streams format [] bytes [] (some error)
  | yielded (read : format.item record bytes = .ok (item,left)) (rest : Streams format pending left items stop) :
      Streams format (record :: pending) bytes (item :: items) stop
  | broken (failed : format.item record bytes = .error error) :
      Streams format (record :: pending) bytes [] (some error)

variable {format : Format ε R I}

theorem streams_of (advances : format.Advances total) (pending : List R) (within : bytes.length ≤ total) :
    ∃ items stop, Streams format pending bytes items stop := by
  induction length : bytes.length using Nat.strongRecOn generalizing pending bytes with
  | ind size ih =>
    subst length
    cases pending with
    | nil =>
      by_cases unread : bytes = []
      · rw [unread]
        exact ⟨[],none,.ended⟩
      · cases read : format.record bytes with
        | error error => exact ⟨[],some error,.unreadable unread read⟩
        | ok pair =>
          obtain ⟨record,left⟩ := pair
          have shorter := advances.record read
          obtain ⟨items,stop,rest⟩ := ih _ shorter (List.replicate (format.count record) record) (by omega) rfl
          exact ⟨items,stop,.entered unread read rest⟩
    | cons record pending =>
      cases read : format.item record bytes with
      | error error => exact ⟨[],some error,.broken read⟩
      | ok pair =>
        obtain ⟨item,left⟩ := pair
        have shorter := advances.item within read
        obtain ⟨items,stop,rest⟩ := ih _ shorter pending (by omega) rfl
        exact ⟨item :: items,stop,.yielded read rest⟩

namespace Streams

-- Readers that differ in the errors of the items only.
theorem transfer {reader : R → Reader ε I} {related : ε → ε → Prop} (same : ∀ error, related error error)
    (read : ∀ {record bytes result}, format.item record bytes = .ok result → reader record bytes = .ok result)
    (failed : ∀ {record bytes error}, format.item record bytes = .error error →
      ∃ other, reader record bytes = .error other ∧ related error other)
    (streams : Streams format pending bytes items stop) :
    ∃ other, Streams {format with item := reader} pending bytes items other ∧ Option.Rel related stop other := by
  induction streams with
  | ended => exact ⟨none,.ended,.none⟩
  | entered unread entered _ ih =>
    obtain ⟨other,rest,linked⟩ := ih
    exact ⟨other,.entered unread entered rest,linked⟩
  | unreadable unread refused => exact ⟨_,.unreadable unread refused,.some (same _)⟩
  | yielded taken _ ih =>
    obtain ⟨other,rest,linked⟩ := ih
    exact ⟨other,.yielded (read taken) rest,linked⟩
  | broken refused =>
    obtain ⟨other,refused,linked⟩ := failed refused
    exact ⟨some other,.broken refused,.some linked⟩

end Streams

-- A step that keeps its state also when it fails.
def Step (σ ε : Type) := σ → Bytes → σ × Except ε Bytes

def times (step : Step σ ε) : Nat → Step σ ε
  | 0,state,bytes => (state,.ok bytes)
  | count+1,state,bytes =>
    match step state bytes with
    | (next,.ok left) => times step count next left
    | (next,.error error) => (next,.error error)

-- `none` is a loop that was cut short because its fuel ran out.
def whileUnread (step : Step σ ε) : Nat → σ → Bytes → Option (σ × Option ε)
  | _,state,[] => some (state,none)
  | 0,_,_ :: _ => none
  | fuel+1,state,byte :: rest =>
    match step state (byte :: rest) with
    | (next,.ok left) => whileUnread step fuel next left
    | (next,.error error) => some (next,some error)

theorem times_stepped {step : Step σ ε} (ran : step state bytes = (next,.ok left)) :
    times step (count+1) state bytes = times step count next left := by
  simp only [times,ran]

theorem times_stopped {step : Step σ ε} (ran : step state bytes = (next,.error error)) :
    times step (count+1) state bytes = (next,.error error) := by
  simp only [times,ran]

theorem while_empty (step : Step σ ε) (fuel : Nat) (state : σ) : whileUnread step fuel state [] = some (state,none) := by
  cases fuel <;> rfl

theorem while_unread (step : Step σ ε) (unread : bytes ≠ []) :
    whileUnread step (fuel+1) state bytes = match step state bytes with
      | (next,.ok left) => whileUnread step fuel next left
      | (next,.error error) => some (next,some error) := by
  cases bytes with
  | nil => exact absurd rfl unread
  | cons byte rest => rfl

-- What a step keeps where a reader of states returns the first: they differ in the
-- state that is left after a failure.
inductive Mirrors : Except ε (σ × Bytes) → σ × Except ε Bytes → Prop where
  | read : Mirrors (.ok (next,left)) (next,.ok left)
  | failed : Mirrors (.error error) (kept,.error error)

theorem while_mirrors {reader : σ → Reader ε σ} {step : Step σ ε}
    (mirrors : ∀ state bytes, Mirrors (reader state bytes) (step state bytes))
    (ended : stepWhileUnread reader fuel state bytes = some (final,stop)) :
    ∃ last, whileUnread step fuel state bytes = some (last,stop) ∧ (stop = none → last = final) := by
  induction fuel generalizing state bytes with
  | zero =>
    cases bytes with
    | nil => cases ended; exact ⟨_,rfl,fun _ => rfl⟩
    | cons byte rest => cases ended
  | succ fuel ih =>
    by_cases unread : bytes = []
    · subst unread
      cases ended
      exact ⟨_,rfl,fun _ => rfl⟩
    · rw [while_unread step unread]
      cases ran : reader state bytes with
      | ok pair =>
        obtain ⟨next,left⟩ := pair
        have mirrored := mirrors state bytes
        rw [loop_stepped unread ran] at ended
        rw [ran] at mirrored
        generalize step state bytes = stepped at mirrored ⊢
        cases mirrored
        exact ih ended
      | error error =>
        have mirrored := mirrors state bytes
        rw [loop_stopped unread ran] at ended
        rw [ran] at mirrored
        generalize step state bytes = stepped at mirrored ⊢
        cases mirrored
        cases ended
        exact ⟨_,rfl,nofun⟩

-- Two nested loops over a format: `body` reads a record and takes its items with `item`.
structure Follows (format : Format ε R I) (item : R → Step σ ε') (body : Step σ ε') (observe : σ → I → σ)
    (failed : σ → ε → σ) (report : ε → ε') : Prop where
  taken : format.item record bytes = .ok (value,left) → item record state bytes = (observe state value,.ok left)
  broken : format.item record bytes = .error error → item record state bytes = (failed state error,.error (report error))
  entered : format.record bytes = .ok (record,left) →
    body state bytes = times (item record) (format.count record) state left
  unreadable : format.record bytes = .error error → body state bytes = (failed state error,.error (report error))

def outcome (observe : σ → I → σ) (failed : σ → ε → σ) (state : σ) (items : List I) : Option ε → σ
  | none => items.foldl observe state
  | some error => failed (items.foldl observe state) error

-- The loops taken up again where the record still owes `count` items.
def resume (item body : Step σ ε) (count fuel : Nat) (state : σ) (bytes : Bytes) : Option (σ × Option ε) :=
  match times item count state bytes with
  | (next,.ok left) => whileUnread body fuel next left
  | (next,.error error) => some (next,some error)

namespace Follows
variable {item : R → Step σ ε'} {body : Step σ ε'} {observe : σ → I → σ} {failed : σ → ε → σ} {report : ε → ε'}

theorem resumed (follows : Follows format item body observe failed report) (advances : format.Advances total)
    (step : Step σ ε') (fuel : Nat) (state : σ) (streams : Streams format pending bytes items stop)
    (owed : ∀ record ∈ pending, step = item record)
    (within : bytes.length ≤ total) (enough : bytes.length ≤ fuel) :
    resume step body pending.length fuel state bytes = some (outcome observe failed state items stop,stop.map report) := by
  induction streams generalizing step fuel state with
  | ended => exact while_empty body fuel state
  | @entered bytes record left items stop unread read _ ih =>
    have shorter := advances.record read
    obtain ⟨fuel,rfl⟩ : ∃ smaller, fuel = smaller+1 := ⟨fuel - 1,by omega⟩
    have rest := ih (item record) fuel state (fun _ owing => congrArg item (List.eq_of_mem_replicate owing).symm)
      (by omega) (by omega)
    rw [List.length_replicate] at rest
    change whileUnread body (fuel+1) state bytes = _
    rw [while_unread body unread,follows.entered read]
    exact rest
  | unreadable unread refused =>
    have some_left := List.length_pos_iff.mpr unread
    obtain ⟨fuel,rfl⟩ : ∃ smaller, fuel = smaller+1 := ⟨fuel - 1,by omega⟩
    change whileUnread body (fuel+1) state _ = _
    rw [while_unread body unread,follows.unreadable refused]
    rfl
  | @yielded record bytes value left pending items stop read _ ih =>
    have shorter := advances.item within read
    have rest := ih step fuel (observe state value) (fun other owing => owed other (List.mem_cons_of_mem _ owing))
      (by omega) (by omega)
    have taken : step state bytes = (observe state value,.ok left) := by
      rw [owed record List.mem_cons_self]
      exact follows.taken read
    unfold resume
    rw [List.length_cons,times_stepped taken]
    cases stop <;> exact rest
  | @broken record bytes error pending refused =>
    have broken : step state bytes = (failed state error,.error (report error)) := by
      rw [owed record List.mem_cons_self]
      exact follows.broken refused
    unfold resume
    rw [List.length_cons,times_stopped broken]
    rfl

theorem loop (follows : Follows format item body observe failed report) (advances : format.Advances total)
    (streams : Streams format [] bytes items stop) (within : bytes.length ≤ total) (state : σ) :
    whileUnread body bytes.length state bytes = some (outcome observe failed state items stop,stop.map report) :=
  follows.resumed advances (fun next left => (next,.ok left)) _ state streams
    (fun _ owing => absurd owing List.not_mem_nil) within (Nat.le_refl _)

end Follows
end RecordStream
