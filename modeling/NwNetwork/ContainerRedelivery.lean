import NwNetwork.ContainerAcceptance

namespace NwNetwork.Serialize
open WireReader Hub

-- What a change does at its key. A live one without a value does nothing.
inductive Effect (V : Type) where
  | nothing
  | write (value : V)
  | remove

def Change.effect {K V : Type} : Change K V → Effect V
  | .add _ (some value) _ | .update _ (some value) _ => .write value
  | .add _ none _ | .update _ none _ => .nothing
  | .remove _ _ => .remove

section Vectors
variable {V : Type}

-- How many elements a change leaves of `len`.
def Vec.lenAfter (len : Nat) (change : Change (BitVec 64) V) : Nat :=
  match change.effect with
  | .nothing => len
  | .write _ => if change.key.toNat = len then len + 1 else len
  | .remove => if change.key.toNat < len then len - 1 else len

-- Which element stands at an index after a change: the one of an index before it, or
-- the value it writes.
def Vec.origin (change : Change (BitVec 64) V) (index : Nat) : Nat ⊕ V :=
  match change.effect with
  | .nothing => .inl index
  | .write value => if index = change.key.toNat then .inr value else .inl index
  | .remove => if change.key.toNat ≤ index then .inl (index + 1) else .inl index

def Vec.lenAfterAll (len : Nat) (changes : List (Change (BitVec 64) V)) : Nat := changes.foldl Vec.lenAfter len

def Vec.originAll : List (Change (BitVec 64) V) → Nat → Nat ⊕ V
  | [],index => .inl index
  | change :: changes,index => (Vec.originAll changes index).elim (Vec.origin change) .inr

def Vec.content (values : List V) : Nat ⊕ V → Option V := Sum.elim (values[·]?) some

theorem Vec.applyChange_effect (values : List V) (change : Change (BitVec 64) V) :
    Vec.applyChange values change = match change.effect with
      | .nothing => values
      | .write value => Vec.write change.key.toNat value values
      | .remove => if change.key.toNat < values.length then values.eraseIdx change.key.toNat else values := by
  cases change with
  | add key value sequence => cases value <;> rfl
  | update key value sequence => cases value <;> rfl
  | remove key sequence => rfl

theorem Vec.applyChange_length (values : List V) (change : Change (BitVec 64) V) :
    (Vec.applyChange values change).length = Vec.lenAfter values.length change := by
  rw [Vec.applyChange_effect]
  unfold Vec.lenAfter
  cases change.effect with
  | nothing => rfl
  | write value =>
    change (Vec.write change.key.toNat value values).length = if _ then _ else _
    unfold Vec.write
    split
    · rename_i inside
      rw [List.length_set,if_neg (Nat.ne_of_lt inside)]
    · split
      · exact List.length_append
      · rfl
  | remove =>
    change (if change.key.toNat < values.length then _ else values).length = if _ then _ else _
    split
    · rename_i inside
      exact List.length_eraseIdx_of_lt inside
    · rfl

theorem Vec.applyChange_origin {values : List V} {change : Change (BitVec 64) V}
    (inside : index < Vec.lenAfter values.length change) :
    (Vec.applyChange values change)[index]? = Vec.content values (Vec.origin change index) := by
  rw [Vec.applyChange_effect]
  unfold Vec.lenAfter at inside
  unfold Vec.origin
  cases effect : change.effect with
  | nothing => rfl
  | write value =>
    rw [effect] at inside
    dsimp only at inside ⊢
    unfold Vec.write
    by_cases here : index = change.key.toNat
    · rw [if_pos here,here]
      split
      · rename_i old
        exact List.getElem?_set_self old
      · split
        · rename_i last
          rw [last]
          exact List.getElem?_concat_length
        · rename_i old last
          rw [if_neg last,here] at inside
          exact absurd inside old
    · rw [if_neg here]
      split
      · exact List.getElem?_set_ne (Ne.symm here)
      · split
        · rename_i last
          rw [if_pos last] at inside
          refine List.getElem?_append_left (Nat.lt_of_le_of_ne (Nat.le_of_lt_succ inside) ?_)
          exact fun same => here (same.trans last.symm)
        · rfl
  | remove =>
    rw [effect] at inside
    dsimp only at inside ⊢
    split
    · rw [List.getElem?_eraseIdx]
      by_cases moved : change.key.toNat ≤ index
      · rw [if_pos moved,if_neg (Nat.not_lt.mpr moved)]
        rfl
      · rw [if_neg moved,if_pos (Nat.lt_of_not_le moved)]
        rfl
    · rename_i outside
      rw [if_neg outside] at inside
      rw [if_neg fun moved => outside (Nat.lt_of_le_of_lt moved inside)]
      rfl

theorem Vec.origin_lt {len : Nat} {change : Change (BitVec 64) V} (inside : index < Vec.lenAfter len change)
    (before : Vec.origin change index = .inl place) : place < len := by
  unfold Vec.lenAfter at inside
  unfold Vec.origin at before
  cases effect : change.effect with
  | nothing =>
    rw [effect] at inside before
    cases before
    exact inside
  | write value =>
    rw [effect] at inside before
    dsimp only at inside before
    split at before
    · cases before
    · cases before
      split at inside <;> omega
  | remove =>
    rw [effect] at inside before
    dsimp only at inside before
    split at before <;> cases before <;> split at inside <;> omega

theorem Vec.originAll_lt {changes : List (Change (BitVec 64) V)} {len : Nat}
    (inside : index < Vec.lenAfterAll len changes) (before : Vec.originAll changes index = .inl place) : place < len := by
  induction changes generalizing len place with
  | nil =>
    cases before
    exact inside
  | cons change changes ih =>
    unfold Vec.originAll at before
    cases middle : Vec.originAll changes index with
    | inl between =>
      rw [middle] at before
      exact Vec.origin_lt (ih inside middle) before
    | inr value =>
      rw [middle] at before
      cases before

theorem Vec.applyChanges_length (values : List V) (changes : List (Change (BitVec 64) V)) :
    ((vecStorage V).applyChanges values changes).length = Vec.lenAfterAll values.length changes :=
  (List.foldl_hom List.length fun values change => (Vec.applyChange_length values change).symm).symm

-- A run leaves at each index what its origin held.
theorem Vec.applyChanges_origin {values : List V} {changes : List (Change (BitVec 64) V)}
    (inside : index < Vec.lenAfterAll values.length changes) :
    ((vecStorage V).applyChanges values changes)[index]? = Vec.content values (Vec.originAll changes index) := by
  induction changes generalizing values with
  | nil => rfl
  | cons change changes ih =>
    have rest : index < Vec.lenAfterAll (Vec.applyChange values change).length changes := by
      rw [Vec.applyChange_length]
      exact inside
    refine (ih rest).trans ?_
    change _ = Vec.content values ((Vec.originAll changes index).elim (Vec.origin change) .inr)
    cases middle : Vec.originAll changes index with
    | inr value => rfl
    | inl between => exact Vec.applyChange_origin (Vec.originAll_lt inside middle)

theorem Vec.originAll_append (first later : List (Change (BitVec 64) V)) (index : Nat) :
    Vec.originAll (first ++ later) index = (Vec.originAll later index).elim (Vec.originAll first) .inr := by
  induction first with
  | nil =>
    change Vec.originAll later index = _
    cases Vec.originAll later index with
    | inl place => rfl
    | inr value => rfl
  | cons change first ih =>
    change (Vec.originAll (first ++ later) index).elim (Vec.origin change) .inr = _
    rw [ih]
    cases Vec.originAll later index with
    | inl place => rfl
    | inr value => rfl

-- The first changes, run again, leave as many elements in the end, and the same one at
-- each place whose element the later changes keep.
structure Vec.Settles (first later : List (Change (BitVec 64) V)) (now : List V) : Prop where
  count : Vec.lenAfterAll now.length (first ++ later) = Vec.lenAfterAll now.length later
  kept : ∀ index < Vec.lenAfterAll now.length later, ∀ place, Vec.originAll later index = .inl place →
    Vec.content now (Vec.originAll first place) = now[place]?

theorem Vec.settles_iff (first later : List (Change (BitVec 64) V)) (now : List V) :
    (vecStorage V).applyChanges now (first ++ later) = (vecStorage V).applyChanges now later ↔
      Vec.Settles first later now := by
  have twice := Vec.applyChanges_length now (first ++ later)
  have once := Vec.applyChanges_length now later
  constructor
  · intro same
    have count : Vec.lenAfterAll now.length (first ++ later) = Vec.lenAfterAll now.length later := by
      rw [← twice,← once,same]
    refine ⟨count,?_⟩
    intro index inside place kept
    have again := Vec.applyChanges_origin (count ▸ inside : index < Vec.lenAfterAll now.length (first ++ later))
    rw [same,Vec.applyChanges_origin inside,Vec.originAll_append,kept] at again
    exact again.symm
  · intro settles
    apply List.ext_getElem?
    intro index
    by_cases inside : index < Vec.lenAfterAll now.length later
    · rw [Vec.applyChanges_origin (settles.count.symm ▸ inside),Vec.applyChanges_origin inside,Vec.originAll_append]
      cases kept : Vec.originAll later index with
      | inl place => exact settles.kept index inside place kept
      | inr value => rfl
    · have past : Vec.lenAfterAll now.length later ≤ index := Nat.le_of_not_lt inside
      rw [List.getElem?_eq_none (by rw [twice,settles.count]; exact past),List.getElem?_eq_none (by rw [once]; exact past)]

end Vectors

section Lists
variable {α : Type}

-- Moving the picked elements to the end changes nothing when they stand there.
theorem parted_iff (picked : α → Bool) (values : List α) :
    (values.filter fun value => !picked value) ++ values.filter picked = values ↔
      values.Pairwise fun one two => picked one = true → picked two = true := by
  induction values with
  | nil => exact ⟨fun _ => .nil,fun _ => rfl⟩
  | cons head rest ih =>
    rw [List.pairwise_cons]
    cases first : picked head with
    | false =>
      rw [List.filter_cons_of_pos (by simp [first]),List.filter_cons_of_neg (by simp [first]),List.cons_append,
        List.cons_inj_right,ih]
      exact ⟨fun parted => ⟨nofun,parted⟩,And.right⟩
    | true =>
      rw [List.filter_cons_of_neg (by simp [first]),List.filter_cons_of_pos first]
      constructor
      · intro same
        have unpicked : rest.filter (fun value => !picked value) = [] := by
          cases left : rest.filter (fun value => !picked value) with
          | nil => rfl
          | cons other others =>
            have member : other ∈ rest.filter (fun value => !picked value) := left ▸ List.mem_cons_self
            rw [left] at same
            cases (List.cons.inj same).1
            simp [first] at member
        have all : ∀ value ∈ rest, picked value = true := by
          intro value member
          simpa using List.filter_eq_nil_iff.mp unpicked value member
        refine ⟨fun value member _ => all value member,?_⟩
        exact List.Pairwise.imp_of_mem (fun _ second _ _ => all _ second) (List.pairwise_of_forall fun _ _ => trivial)
      · rintro ⟨all,_⟩
        have unpicked : rest.filter (fun value => !picked value) = [] := by
          apply List.filter_eq_nil_iff.mpr
          intro value member
          rw [all value member rfl]
          exact Bool.false_ne_true
        rw [unpicked,List.filter_eq_self.mpr fun value member => all value member rfl]
        rfl

end Lists

section Maps
open OrderedMap
variable {K V : Type}

def Map.removedKeys (changes : List (Change K V)) : List K := (changes.filter (!·.isLive)).map Change.key

theorem Map.removedKeys_snoc (changes : List (Change K V)) (change : Change K V) :
    Map.removedKeys (changes ++ [change]) = match change.effect with
      | .remove => Map.removedKeys changes ++ [change.key]
      | _ => Map.removedKeys changes := by
  unfold Map.removedKeys
  rw [List.filter_append,List.map_append]
  cases change with
  | add key value sequence => cases value <;> exact List.append_nil _
  | update key value sequence => cases value <;> exact List.append_nil _
  | remove key sequence => rfl

variable [DecidableEq K]

-- The keys of a map after a change of one with these.
def Map.keysAfter (keys : List K) (change : Change K V) : List K :=
  match change.effect with
  | .nothing => keys
  | .write _ => if change.key ∈ keys then keys else keys ++ [change.key]
  | .remove => keys.filter (· ≠ change.key)

theorem Map.applyChange_effect (values : OrderedMap K V) (change : Change K V) :
    Map.applyChange values change = match change.effect with
      | .nothing => values
      | .write value => values.insert change.key value
      | .remove => values.shiftRemove change.key := by
  cases change with
  | add key value sequence => cases value <;> rfl
  | update key value sequence => cases value <;> rfl
  | remove key sequence => rfl

theorem Map.applyChange_keys (values : OrderedMap K V) (change : Change K V) :
    (Map.applyChange values change).entries.map Prod.fst = Map.keysAfter (values.entries.map Prod.fst) change := by
  rw [Map.applyChange_effect]
  unfold Map.keysAfter
  cases change.effect with
  | nothing => rfl
  | write value => exact keys_put change.key value values.entries
  | remove =>
    dsimp only
    rw [List.filter_map]
    rfl

theorem Map.applyChanges_keys (values : OrderedMap K V) (changes : List (Change K V)) :
    ((indexMapStorage K V).applyChanges values changes).entries.map Prod.fst =
      changes.foldl Map.keysAfter (values.entries.map Prod.fst) :=
  (List.foldl_hom (fun values : OrderedMap K V => values.entries.map Prod.fst)
    fun values change => (Map.applyChange_keys values change).symm).symm

-- A run keeps the keys it does not remove in their places, and what it puts behind
-- them depends only on which keys there were.
theorem Map.keys_run (changes : List (Change K V)) (keys : List K) :
    ∃ tail, ∀ others : List K, (∀ key, key ∈ others ↔ key ∈ keys) →
      changes.foldl Map.keysAfter others = others.filter (· ∉ Map.removedKeys changes) ++ tail := by
  induction changes using List.reverseRecOn with
  | nil =>
    refine ⟨[],fun others _ => ?_⟩
    rw [List.append_nil]
    exact (List.filter_eq_self.mpr fun _ _ => by simp [Map.removedKeys]).symm
  | append_singleton changes change ih =>
    obtain ⟨tail,run⟩ := ih
    rw [Map.removedKeys_snoc]
    have last : ∀ others : List K, (∀ key, key ∈ others ↔ key ∈ keys) →
        (changes ++ [change]).foldl Map.keysAfter others =
          Map.keysAfter (others.filter (· ∉ Map.removedKeys changes) ++ tail) change := by
      intro others same
      rw [List.foldl_append,run others same]
      rfl
    cases effect : change.effect with
    | nothing =>
      have step : ∀ front : List K, Map.keysAfter front change = front := fun front => by
        unfold Map.keysAfter
        rw [effect]
      exact ⟨tail,fun others same => (last others same).trans (step _)⟩
    | write value =>
      have step : ∀ front : List K, Map.keysAfter front change =
          if change.key ∈ front then front else front ++ [change.key] := fun front => by
        unfold Map.keysAfter
        rw [effect]
      by_cases present : change.key ∈ keys.filter (· ∉ Map.removedKeys changes) ++ tail
      · refine ⟨tail,fun others same => (last others same).trans ((step _).trans (if_pos ?_))⟩
        simpa [same] using present
      · refine ⟨tail ++ [change.key],fun others same => (last others same).trans ((step _).trans ((if_neg ?_).trans ?_))⟩
        · simpa [same] using present
        · exact List.append_assoc _ _ _
    | remove =>
      have step : ∀ front : List K, Map.keysAfter front change = front.filter (· ≠ change.key) := fun front => by
        unfold Map.keysAfter
        rw [effect]
      refine ⟨tail.filter (· ≠ change.key),fun others same => (last others same).trans ((step _).trans ?_)⟩
      rw [List.filter_append,List.filter_filter]
      congr 1
      apply List.filter_congr
      intro other _
      simp [and_comm]

-- The order of the keys that are removed on the way is made by the run alone.
theorem Map.removed_run (changes : List (Change K V)) (keys others : List K) :
    (changes.foldl Map.keysAfter keys).filter (· ∈ Map.removedKeys changes) =
      (changes.foldl Map.keysAfter others).filter (· ∈ Map.removedKeys changes) := by
  induction changes using List.reverseRecOn with
  | nil => simp [Map.removedKeys]
  | append_singleton changes change ih =>
    rw [Map.removedKeys_snoc,List.foldl_append,List.foldl_append]
    change (Map.keysAfter (changes.foldl Map.keysAfter keys) change).filter _ =
      (Map.keysAfter (changes.foldl Map.keysAfter others) change).filter _
    generalize changes.foldl Map.keysAfter keys = one at ih ⊢
    generalize changes.foldl Map.keysAfter others = two at ih ⊢
    unfold Map.keysAfter
    cases change.effect with
    | nothing => exact ih
    | write value =>
      dsimp only
      by_cases inside : change.key ∈ Map.removedKeys changes
      · have both : change.key ∈ one ↔ change.key ∈ two := by
          have filtered := congrArg (change.key ∈ ·) ih
          simpa [List.mem_filter,inside] using filtered
        by_cases present : change.key ∈ one
        · rw [if_pos present,if_pos (both.mp present),ih]
        · rw [if_neg present,if_neg (fun there => present (both.mpr there)),List.filter_append,List.filter_append,ih]
      · have unseen : ∀ front : List K, (if change.key ∈ front then front else front ++ [change.key]).filter
            (· ∈ Map.removedKeys changes) = front.filter (· ∈ Map.removedKeys changes) := by
          intro front
          split
          · rfl
          · simp [List.filter_append,inside]
        rw [unseen,unseen,ih]
    | remove =>
      have narrowed : ∀ front : List K, (front.filter (· ≠ change.key)).filter (· ∈ Map.removedKeys changes ++ [change.key]) =
          (front.filter (· ∈ Map.removedKeys changes)).filter (· ≠ change.key) := by
        intro front
        rw [List.filter_filter,List.filter_filter]
        apply List.filter_congr
        intro other _
        by_cases same : other = change.key <;> simp [same]
      exact (narrowed one).trans ((congrArg (List.filter (· ≠ change.key)) ih).trans (narrowed two).symm)

-- Changes leave at a key what was there, or the same whatever was there.
theorem Map.get_run (changes : List (Change K V)) (key : K) :
    (∀ values : OrderedMap K V, ((indexMapStorage K V).applyChanges values changes).get key = values.get key) ∨
      ∃ result, ∀ values : OrderedMap K V, ((indexMapStorage K V).applyChanges values changes).get key = result := by
  induction changes with
  | nil => exact .inl fun _ => rfl
  | cons change changes ih =>
    have one : (∀ values : OrderedMap K V, (Map.applyChange values change).get key = values.get key) ∨
        ∃ result, ∀ values : OrderedMap K V, (Map.applyChange values change).get key = result := by
      simp only [Map.applyChange_effect]
      cases change.effect with
      | nothing => exact .inl fun _ => rfl
      | write value =>
        by_cases here : key = change.key
        · exact .inr ⟨some value,fun values => (get_insert values change.key key value).trans (if_pos here)⟩
        · exact .inl fun values => (get_insert values change.key key value).trans (if_neg here)
      | remove =>
        by_cases here : key = change.key
        · exact .inr ⟨none,fun values => (get_shiftRemove values change.key key).trans (if_pos here)⟩
        · exact .inl fun values => (get_shiftRemove values change.key key).trans (if_neg here)
    rcases ih with kept | ⟨result,same⟩
    · rcases one with still | ⟨result,same⟩
      · exact .inl fun values => (kept _).trans (still values)
      · exact .inr ⟨result,fun values => (kept _).trans (same values)⟩
    · exact .inr ⟨result,fun values => same _⟩

-- What a map holds at its keys does not change when the changes are run once more.
theorem Map.get_again (before : OrderedMap K V) (changes : List (Change K V)) (key : K) :
    ((indexMapStorage K V).applyChanges ((indexMapStorage K V).applyChanges before changes) changes).get key =
      ((indexMapStorage K V).applyChanges before changes).get key := by
  rcases Map.get_run changes key with kept | ⟨result,same⟩
  · exact kept _
  · rw [same,same]

-- Maps with the same keys in one order and the same values at them are equal.
theorem Map.ext_keys {one two : OrderedMap K V} (keys : one.entries.map Prod.fst = two.entries.map Prod.fst)
    (held : ∀ key, one.get key = two.get key) : one = two := by
  have length : one.entries.length = two.entries.length := by simpa using congrArg List.length keys
  apply OrderedMap.ext
  apply List.ext_getElem length
  intro index inside other
  have key : one.entries[index].1 = two.entries[index].1 := by
    have same := congrArg (·[index]?) keys
    simpa [List.getElem?_map,inside,other] using same
  have first : one.get one.entries[index].1 = some one.entries[index].2 :=
    (find_some one.distinct).mpr (List.getElem_mem inside)
  have second : two.get two.entries[index].1 = some two.entries[index].2 :=
    (find_some two.distinct).mpr (List.getElem_mem other)
  rw [held,key,second] at first
  exact Prod.ext key (Option.some.inj first).symm

-- The keys that the first changes remove, and write again, stand behind the others
-- among those that the later changes leave.
def Map.Settles (first later : List (Change K V)) (now : OrderedMap K V) : Prop :=
  ((now.entries.map Prod.fst).filter (· ∉ Map.removedKeys later)).Pairwise fun one two =>
    one ∈ Map.removedKeys first → two ∈ Map.removedKeys first

section Again
variable {before now : OrderedMap K V} {first : List (Change K V)}

theorem Map.again_members (ran : (indexMapStorage K V).applyChanges before first = now) (key : K) :
    key ∈ ((indexMapStorage K V).applyChanges now first).entries.map Prod.fst ↔ key ∈ now.entries.map Prod.fst := by
  have held := congrArg (· = none) (Map.get_again before first key)
  rw [ran] at held
  unfold OrderedMap.get at held
  rw [find_none,find_none] at held
  exact not_iff_not.mp (iff_of_eq held)

-- Run again, changes move the keys they remove to the end.
theorem Map.again_keys (ran : (indexMapStorage K V).applyChanges before first = now) :
    ((indexMapStorage K V).applyChanges now first).entries.map Prod.fst =
      (now.entries.map Prod.fst).filter (· ∉ Map.removedKeys first) ++
        (now.entries.map Prod.fst).filter (· ∈ Map.removedKeys first) := by
  have members := Map.again_members ran
  have distinct := ((indexMapStorage K V).applyChanges now first).distinct
  have ordered := Map.removed_run first (now.entries.map Prod.fst) (before.entries.map Prod.fst)
  obtain ⟨tail,run⟩ := Map.keys_run first (now.entries.map Prod.fst)
  have parts := (Map.applyChanges_keys now first).trans (run _ fun _ => Iff.rfl)
  rw [← Map.applyChanges_keys before first,ran,← Map.applyChanges_keys,parts,List.filter_append] at ordered
  rw [parts] at distinct members
  have behind : ∀ key ∈ tail, key ∈ Map.removedKeys first := by
    intro key last
    by_contra outside
    have inside : key ∈ (now.entries.map Prod.fst).filter (· ∉ Map.removedKeys first) :=
      List.mem_filter.mpr ⟨(members key).mp (List.mem_append_right _ last),by simpa using outside⟩
    exact (List.nodup_append.mp distinct).2.2 key inside key last rfl
  have front : ((now.entries.map Prod.fst).filter (· ∉ Map.removedKeys first)).filter (· ∈ Map.removedKeys first) = [] := by
    apply List.filter_eq_nil_iff.mpr
    intro key kept
    simpa using (List.mem_filter.mp kept).2
  rw [front,List.nil_append,List.filter_eq_self.mpr fun key last => by simpa using behind key last] at ordered
  rw [parts,ordered]

-- At its keys a map holds what it holds after the later changes alone.
theorem Map.get_later (ran : (indexMapStorage K V).applyChanges before first = now) (later : List (Change K V)) (key : K) :
    ((indexMapStorage K V).applyChanges now (first ++ later)).get key =
      ((indexMapStorage K V).applyChanges now later).get key := by
  rw [ContainerStorage.applyChanges_append]
  rcases Map.get_run later key with kept | ⟨result,same⟩
  · rw [kept,kept,← ran]
    exact Map.get_again before first key
  · rw [same,same]

theorem Map.settles_iff (ran : (indexMapStorage K V).applyChanges before first = now) (later : List (Change K V)) :
    (indexMapStorage K V).applyChanges now (first ++ later) = (indexMapStorage K V).applyChanges now later ↔
      Map.Settles first later now := by
  have held := Map.get_later ran later
  obtain ⟨tail,run⟩ := Map.keys_run later (now.entries.map Prod.fst)
  have once := (Map.applyChanges_keys now later).trans (run _ fun _ => Iff.rfl)
  have twice := (Map.applyChanges_keys ((indexMapStorage K V).applyChanges now first) later).trans
    (run _ (Map.again_members ran))
  have swapped : ∀ picked : K → Bool, ((now.entries.map Prod.fst).filter picked).filter (· ∉ Map.removedKeys later) =
      ((now.entries.map Prod.fst).filter (· ∉ Map.removedKeys later)).filter picked := by
    intro picked
    rw [List.filter_filter,List.filter_filter]
    exact List.filter_congr fun _ _ => Bool.and_comm _ _
  rw [← ContainerStorage.applyChanges_append,Map.again_keys ran,List.filter_append,swapped,swapped] at twice
  have parted := parted_iff (fun key => decide (key ∈ Map.removedKeys first))
    ((now.entries.map Prod.fst).filter (· ∉ Map.removedKeys later))
  simp only [decide_eq_true_eq] at parted
  have same_keys : (indexMapStorage K V).applyChanges now (first ++ later) = (indexMapStorage K V).applyChanges now later ↔
      ((indexMapStorage K V).applyChanges now (first ++ later)).entries.map Prod.fst =
        ((indexMapStorage K V).applyChanges now later).entries.map Prod.fst :=
    ⟨fun same => by rw [same],fun keys => Map.ext_keys keys held⟩
  rw [same_keys,once,twice,List.append_left_inj]
  unfold Map.Settles
  rw [← parted]
  simp only [decide_not]

end Again
end Maps

namespace StorageKind
variable {K V : Type}

-- When changes that were merged already can be merged again before later ones.
def Settles : (kind : StorageKind V K) → List (Change K V) → List (Change K V) → kind.storage.Values → Prop
  | .vec,first,later,now => Vec.Settles first later now
  | @hashMap _ _ _ _,_,_,_ => True
  | @indexMap _ _ _,first,later,now => Map.Settles first later now

variable (kind : StorageKind V K)

theorem settles_iff {before now : kind.storage.Values} {first : List (Change K V)}
    (ran : kind.storage.applyChanges before first = now) (later : List (Change K V)) :
    kind.storage.Same (kind.storage.applyChanges now (first ++ later)) (kind.storage.applyChanges before (first ++ later)) ↔
      kind.Settles first later now := by
  have once : kind.storage.applyChanges before (first ++ later) = kind.storage.applyChanges now later := by
    rw [kind.storage.applyChanges_append,ran]
  rw [once]
  cases kind with
  | vec => exact Vec.settles_iff first later now
  | indexMap => exact Map.settles_iff ran later
  | hashMap order =>
    refine ⟨fun _ => trivial,fun _ key => ?_⟩
    exact Map.get_later ran later key

end StorageKind

section Redelivery
variable {K V : Type} {kind : StorageKind V K}

-- A receiver that has merged a delta and recorded its last change.
def recorded (receiver : ReplicatedContainer kind.storage) (first : List (Change K V)) (several : first ≠ [])
    (seq : SequenceNumber) (inherit_status : Bool) : ReplicatedContainer kind.storage :=
  (Exchange.merge receiver (.decodedChanges first) seq inherit_status).1.clientUpdateSequenceOfLastProcessedChange
    (first.getLast several).sequence

variable {receiver : ReplicatedContainer kind.storage} {first : List (Change K V)}

theorem recorded_values (several : first ≠ []) (seq : SequenceNumber) (inherit_status : Bool)
    (accepted : (Exchange.merge receiver (.decodedChanges first) seq inherit_status).2 = true) :
    (recorded receiver first several seq inherit_status).values = kind.storage.applyChanges receiver.values first := by
  obtain ⟨_,values,_⟩ := merge_list receiver several seq inherit_status
  rw [accepted] at values
  unfold recorded ReplicatedContainer.clientUpdateSequenceOfLastProcessedChange
  split
  · exact values
  · exact values

theorem recorded_processed (several : first ≠ []) (seq : SequenceNumber) (inherit_status : Bool)
    (accepted : (Exchange.merge receiver (.decodedChanges first) seq inherit_status).2 = true)
    (real : (first.getLast several).sequence.IsReal) :
    (recorded receiver first several seq inherit_status).seqOfLastProcessedChange = (first.getLast several).sequence := by
  obtain ⟨taken,_,processed⟩ := merge_list receiver several seq inherit_status
  rw [accepted] at taken
  have above : receiver.seqOfLastProcessedChange.less (first.getLast several).sequence = true := by
    rcases Bool.or_eq_true_iff.mp taken.symm with fresh | above
    · have unset : receiver.seqOfLastProcessedChange.isValid = false := by simpa using fresh
      rw [SequenceNumber.less_iff]
      unfold SequenceNumber.rank
      rw [SequenceNumber.real_valid real,unset]
      exact Nat.succ_pos _
    · exact above
  unfold recorded ReplicatedContainer.clientUpdateSequenceOfLastProcessedChange
  rw [processed,if_pos above]

-- Merging the delta again changes nothing, and merging it again with later changes
-- behind it is as good as every change once, just when the storage settles.
theorem redelivery_iff {later : List (Change K V)} (several : first ≠ []) (more : later ≠ [])
    (real : ∀ change ∈ first ++ later, change.sequence.IsReal)
    (increasing : (first ++ later).Pairwise fun one two => one.sequence.less two.sequence = true)
    (seq : SequenceNumber) (inherit_status : Bool)
    (accepted : (Exchange.merge receiver (.decodedChanges first) seq inherit_status).2 = true)
    (again : SequenceNumber) (again_status : Bool) :
    (kind.storage.Same
        (Exchange.merge (recorded receiver first several seq inherit_status) (.decodedChanges first) again again_status).1.values
        (recorded receiver first several seq inherit_status).values ∧
      kind.storage.Same
        (Exchange.merge (recorded receiver first several seq inherit_status) (.decodedChanges (first ++ later)) again
          again_status).1.values
        (kind.storage.applyChanges receiver.values (first ++ later))) ↔
      kind.Settles first later (recorded receiver first several seq inherit_status).values := by
  have last_real := real _ (List.mem_append_left later (List.getLast_mem several))
  have values := recorded_values several seq inherit_status accepted
  have processed := recorded_processed several seq inherit_status accepted last_real
  generalize recorded receiver first several seq inherit_status = now at values processed ⊢
  obtain ⟨refused,unchanged,_⟩ := merge_list now several again again_status
  have both : first ++ later ≠ [] := List.append_ne_nil_of_left_ne_nil several later
  obtain ⟨taken,merged,_⟩ := merge_list now both again again_status
  rw [processed,SequenceNumber.not_less_self,SequenceNumber.real_valid last_real] at refused
  rw [refused] at unchanged
  have above : (first.getLast several).sequence.less ((first ++ later).getLast both).sequence = true := by
    rw [List.getLast_append_of_ne_nil both more]
    exact (List.pairwise_append.mp increasing).2.2 _ (List.getLast_mem several) _ (List.getLast_mem more)
  rw [processed,above,Bool.or_true] at taken
  rw [taken] at merged
  rw [unchanged,merged]
  have settles := kind.settles_iff values.symm later
  exact ⟨fun both => settles.mp both.2,fun settled => ⟨kind.same_refl _,settles.mpr settled⟩⟩

-- A vector of three whose first element is updated, and then its second.
theorem redelivery_iff_update :
    (∀ change ∈ [.update 0 (some 7) (.seq 1)] ++ [(.update 1 (some 9) (.seq 2) : Change (BitVec 64) UInt8)],
        change.sequence.IsReal) ∧
      (byteVec.storage.Same
          (Exchange.merge (recorded (.new .validNonSequence three) [.update 0 (some 7) (.seq 1)] (List.cons_ne_nil _ _)
            (.seq 1) false) (.decodedChanges [.update 0 (some 7) (.seq 1)]) (.seq 2) false).1.values
          (recorded (.new .validNonSequence three) [.update 0 (some 7) (.seq 1)] (List.cons_ne_nil _ _) (.seq 1)
            false).values ∧
        byteVec.storage.Same
          (Exchange.merge (recorded (.new .validNonSequence three) [.update 0 (some 7) (.seq 1)] (List.cons_ne_nil _ _)
            (.seq 1) false) (.decodedChanges ([.update 0 (some 7) (.seq 1)] ++ [.update 1 (some 9) (.seq 2)])) (.seq 2)
            false).1.values
          (byteVec.storage.applyChanges three ([.update 0 (some 7) (.seq 1)] ++ [.update 1 (some 9) (.seq 2)])) ↔
      byteVec.Settles [.update 0 (some 7) (.seq 1)] [.update 1 (some 9) (.seq 2)]
        (recorded (.new .validNonSequence three) [.update 0 (some 7) (.seq 1)] (List.cons_ne_nil _ _) (.seq 1)
          false).values) := by
  have real : ∀ change ∈ [.update 0 (some 7) (.seq 1)] ++ [(.update 1 (some 9) (.seq 2) : Change (BitVec 64) UInt8)],
      change.sequence.IsReal := by
    intro change member
    rcases List.mem_cons.mp member with rfl | member
    · exact ⟨1,rfl,by decide,by decide⟩
    · cases List.mem_singleton.mp member
      exact ⟨2,rfl,by decide,by decide⟩
  refine ⟨real,redelivery_iff (List.cons_ne_nil _ _) (List.cons_ne_nil _ _) real ?_ (.seq 1) false ?_ (.seq 2) false⟩
  · exact List.pairwise_pair.mpr rfl
  · decide +kernel

-- The first element of a vector is removed, and then the new first one updated. With
-- the delta of both the removal is merged twice.
theorem removal_replayed :
    SequenceNumber.less (.seq 1) (.seq 2) = true ∧
      (Exchange.merge (.new .validNonSequence three : ReplicatedContainer byteVec.storage)
        (.decodedChanges [.remove 0 (.seq 1)]) (.seq 1) false).2 = true ∧
      ¬byteVec.storage.Same
        (Exchange.merge (recorded (.new .validNonSequence three) [.remove 0 (.seq 1)] (List.cons_ne_nil _ _) (.seq 1) false)
          (.decodedChanges ([.remove 0 (.seq 1)] ++ [.update 0 (some 9) (.seq 2)])) (.seq 2) false).1.values
        (byteVec.storage.applyChanges three ([.remove 0 (.seq 1)] ++ [.update 0 (some 9) (.seq 2)])) := by
  decide +kernel

end Redelivery
end NwNetwork.Serialize
