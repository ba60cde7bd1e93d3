import Mathlib.Data.List.Basic
import Mathlib.Data.List.Nodup
import Mathlib.Data.List.Perm.Basic

namespace OrderedMap
variable {K V W : Type} [DecidableEq K]

-- A replaced entry keeps its place and a new one goes to the end.
def put (key : K) (value : V) : List (K × V) → List (K × V)
  | [] => [(key,value)]
  | entry :: rest => if entry.1 = key then (key,value) :: rest else entry :: put key value rest

def drop (key : K) (entries : List (K × V)) : List (K × V) := entries.filter fun entry => entry.1 ≠ key

def find (key : K) : List (K × V) → Option V
  | [] => none
  | entry :: rest => if entry.1 = key then some entry.2 else find key rest

theorem find_put (key other : K) (value : V) (entries : List (K × V)) :
    find other (put key value entries) = if other = key then some value else find other entries := by
  induction entries with
  | nil =>
    unfold put find find
    by_cases same : other = key
    · rw [if_pos same,if_pos same.symm]
    · rw [if_neg same,if_neg (Ne.symm same)]
  | cons entry rest ih =>
    unfold put
    by_cases here : entry.1 = key
    · rw [if_pos here]
      unfold find
      by_cases same : other = key
      · rw [if_pos same,if_pos same.symm]
      · rw [if_neg same,if_neg (Ne.symm same),if_neg (here ▸ Ne.symm same)]
    · rw [if_neg here]
      unfold find
      by_cases first : entry.1 = other
      · rw [if_pos first,if_pos first,if_neg (first ▸ here)]
      · rw [if_neg first,if_neg first,ih]

theorem find_drop (key other : K) (entries : List (K × V)) :
    find other (drop key entries) = if other = key then none else find other entries := by
  induction entries with
  | nil => exact (ite_self none).symm
  | cons entry rest ih =>
    unfold drop at ih ⊢
    by_cases here : entry.1 = key
    · rw [List.filter_cons_of_neg (by simpa using here),ih]
      by_cases same : other = key
      · rw [if_pos same,if_pos same]
      · rw [if_neg same,if_neg same]
        exact (if_neg (here ▸ Ne.symm same)).symm
    · rw [List.filter_cons_of_pos (by simpa using here)]
      unfold find
      by_cases first : entry.1 = other
      · rw [if_pos first,if_pos first,if_neg (first ▸ here)]
      · rw [if_neg first,if_neg first,ih]

theorem find_none (entries : List (K × V)) : find key entries = none ↔ key ∉ entries.map Prod.fst := by
  induction entries with
  | nil => exact ⟨fun _ => List.not_mem_nil,fun _ => rfl⟩
  | cons entry rest ih =>
    unfold find
    rw [List.map_cons,List.mem_cons]
    by_cases here : entry.1 = key
    · rw [if_pos here]
      exact ⟨nofun,fun absent => absurd (.inl here.symm) absent⟩
    · rw [if_neg here,ih]
      exact ⟨fun absent => fun | .inl same => here same.symm | .inr later => absent later,
        fun absent later => absent (.inr later)⟩

theorem find_some {entries : List (K × V)} (distinct : (entries.map Prod.fst).Nodup) :
    find key entries = some value ↔ (key,value) ∈ entries := by
  induction entries with
  | nil => exact ⟨nofun,nofun⟩
  | cons entry rest ih =>
    rw [List.map_cons,List.nodup_cons] at distinct
    unfold find
    rw [List.mem_cons]
    by_cases here : entry.1 = key
    · rw [if_pos here]
      constructor
      · intro same
        cases same
        exact .inl (Prod.ext here.symm rfl)
      · rintro (rfl | later)
        · rfl
        · exact absurd (List.mem_map_of_mem later) (here ▸ distinct.1)
    · rw [if_neg here,ih distinct.2]
      constructor
      · exact .inr
      · rintro (rfl | later)
        · exact absurd rfl here
        · exact later

theorem keys_put (key : K) (value : V) (entries : List (K × V)) :
    (put key value entries).map Prod.fst =
      if key ∈ entries.map Prod.fst then entries.map Prod.fst else entries.map Prod.fst ++ [key] := by
  induction entries with
  | nil => rfl
  | cons entry rest ih =>
    unfold put
    by_cases here : entry.1 = key
    · rw [if_pos here,List.map_cons,List.map_cons,if_pos (here ▸ List.mem_cons_self),here]
    · rw [if_neg here,List.map_cons,List.map_cons,ih]
      by_cases later : key ∈ rest.map Prod.fst
      · rw [if_pos later,if_pos (List.mem_cons_of_mem _ later)]
      · have absent : key ∉ entry.1 :: rest.map Prod.fst := by
          rw [List.mem_cons]
          rintro (same | present)
          · exact here same.symm
          · exact later present
        rw [if_neg later,if_neg absent]
        rfl

theorem put_distinct {entries : List (K × V)} (distinct : (entries.map Prod.fst).Nodup) (key : K) (value : V) :
    ((put key value entries).map Prod.fst).Nodup := by
  rw [keys_put]
  split
  · exact distinct
  · rename_i absent
    apply List.Nodup.append distinct (List.nodup_singleton key)
    intro other present single
    cases List.mem_singleton.mp single
    exact absent present

theorem drop_distinct {entries : List (K × V)} (distinct : (entries.map Prod.fst).Nodup) (key : K) : ((drop key entries).map Prod.fst).Nodup :=
  distinct.sublist (List.filter_sublist.map Prod.fst)

-- Neither operation looks at the values.
theorem put_values (change : K → V → W) (key : K) (value : V) (entries : List (K × V)) :
    (put key value entries).map (fun entry => (entry.1,change entry.1 entry.2)) =
      put key (change key value) (entries.map fun entry => (entry.1,change entry.1 entry.2)) := by
  induction entries with
  | nil => rfl
  | cons entry rest ih =>
    unfold put
    rw [List.map_cons]
    by_cases here : entry.1 = key
    · rw [if_pos here]
      exact (if_pos here).symm
    · rw [if_neg here,List.map_cons,ih]
      exact (if_neg here).symm

theorem drop_values (change : K → V → W) (key : K) (entries : List (K × V)) :
    (drop key entries).map (fun entry => (entry.1,change entry.1 entry.2)) =
      drop key (entries.map fun entry => (entry.1,change entry.1 entry.2)) := by
  unfold drop
  rw [List.filter_map]
  rfl

theorem mem_put {entries : List (K × V)} (present : entry ∈ put key value entries) : entry = (key,value) ∨ entry ∈ entries := by
  induction entries with
  | nil => exact .inl (List.mem_singleton.mp present)
  | cons head rest ih =>
    unfold put at present
    split at present
    · exact (List.mem_cons.mp present).imp_right (List.mem_cons_of_mem _)
    · rcases List.mem_cons.mp present with rfl | later
      · exact .inr List.mem_cons_self
      · exact (ih later).imp_right (List.mem_cons_of_mem _)

theorem put_absent {entries : List (K × V)} (absent : key ∉ entries.map Prod.fst) (value : V) : put key value entries = entries ++ [(key,value)] := by
  induction entries with
  | nil => rfl
  | cons entry rest ih =>
    rw [List.map_cons,List.mem_cons,not_or] at absent
    unfold put
    rw [if_neg (Ne.symm absent.1),ih absent.2]
    rfl

-- The operations at an entry whose key stands there first.
section Split
variable {front back : List (K × V)}

theorem find_split (absent : key ∉ front.map Prod.fst) (value : V) : find key (front ++ (key,value) :: back) = some value := by
  induction front with
  | nil => exact if_pos rfl
  | cons entry front ih =>
    rw [List.map_cons,List.mem_cons,not_or] at absent
    exact (if_neg (Ne.symm absent.1)).trans (ih absent.2)

theorem put_split (absent : key ∉ front.map Prod.fst) (old value : V) :
    put key value (front ++ (key,old) :: back) = front ++ (key,value) :: back := by
  induction front with
  | nil => exact if_pos rfl
  | cons entry front ih =>
    rw [List.map_cons,List.mem_cons,not_or] at absent
    exact (if_neg (Ne.symm absent.1)).trans (congrArg (List.cons entry) (ih absent.2))

theorem drop_absent (absent : key ∉ front.map Prod.fst) : drop key front = front := by
  apply List.filter_eq_self.mpr
  intro entry member
  rw [decide_eq_true_eq]
  intro same
  exact absent (same ▸ List.mem_map_of_mem member)

theorem drop_split (before : key ∉ front.map Prod.fst) (behind : key ∉ back.map Prod.fst) (value : V) :
    drop key (front ++ (key,value) :: back) = front ++ back := by
  have parts : drop key (front ++ (key,value) :: back) = drop key front ++ drop key ((key,value) :: back) :=
    List.filter_append _ _
  have head : drop key ((key,value) :: back) = drop key back := List.filter_cons_of_neg (by simp)
  rw [parts,head,drop_absent before,drop_absent behind]

end Split

-- Putting entries with distinct keys one by one builds just these entries.
theorem put_all {built entries : List (K × V)} (distinct : ((built ++ entries).map Prod.fst).Nodup) :
    entries.foldl (fun built entry => put entry.1 entry.2 built) built = built ++ entries := by
  induction entries generalizing built with
  | nil => exact (List.append_nil built).symm
  | cons entry rest ih =>
    have absent : entry.1 ∉ built.map Prod.fst := by
      rw [List.map_append,List.map_cons] at distinct
      intro present
      exact (List.nodup_append.mp distinct).2.2 _ present _ List.mem_cons_self rfl
    rw [List.foldl_cons,put_absent absent,ih (by rw [List.append_assoc]; exact distinct),List.append_assoc]
    rfl

end OrderedMap

-- The entries of a map in the order of their insertion.
@[ext] structure OrderedMap (K V : Type) where
  entries : List (K × V)
  distinct : (entries.map Prod.fst).Nodup

namespace OrderedMap
variable {K V : Type} [DecidableEq K]

def empty : OrderedMap K V := ⟨[],List.nodup_nil⟩

def insert (map : OrderedMap K V) (key : K) (value : V) : OrderedMap K V :=
  ⟨put key value map.entries,put_distinct map.distinct key value⟩

def shiftRemove (map : OrderedMap K V) (key : K) : OrderedMap K V :=
  ⟨drop key map.entries,drop_distinct map.distinct key⟩

def get (map : OrderedMap K V) (key : K) : Option V := find key map.entries

def ofEntries (entries : List (K × V)) : OrderedMap K V :=
  entries.foldl (fun map entry => map.insert entry.1 entry.2) empty

theorem get_insert (map : OrderedMap K V) (key other : K) (value : V) :
    (map.insert key value).get other = if other = key then some value else map.get other :=
  find_put key other value map.entries

theorem get_shiftRemove (map : OrderedMap K V) (key other : K) :
    (map.shiftRemove key).get other = if other = key then none else map.get other :=
  find_drop key other map.entries

theorem ofEntries_entries {entries : List (K × V)} (distinct : (entries.map Prod.fst).Nodup) :
    (ofEntries entries : OrderedMap K V).entries = entries := by
  have built : ∀ (rest : List (K × V)) (map : OrderedMap K V),
      (rest.foldl (fun map entry => map.insert entry.1 entry.2) map).entries =
        rest.foldl (fun built entry => put entry.1 entry.2 built) map.entries := by
    intro rest
    induction rest with
    | nil => exact fun _ => rfl
    | cons entry rest ih => exact fun map => ih (map.insert entry.1 entry.2)
  unfold ofEntries
  rw [built entries empty]
  exact put_all distinct

theorem get_perm {map : OrderedMap K V} {entries : List (K × V)} (same : entries.Perm map.entries) (key : K) :
    find key entries = map.get key := by
  have distinct : (entries.map Prod.fst).Nodup := (same.map Prod.fst).nodup_iff.mpr map.distinct
  unfold get
  cases found : find key map.entries with
  | none =>
    rw [find_none] at found ⊢
    exact fun present => found ((same.map Prod.fst).mem_iff.mp present)
  | some value =>
    rw [find_some map.distinct] at found
    exact (find_some distinct).mpr (same.mem_iff.mpr found)

end OrderedMap
