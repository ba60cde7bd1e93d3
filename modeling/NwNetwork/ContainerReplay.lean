import NwNetwork.ContainerStorage

namespace NwNetwork.Serialize
open WireReader Hub

-- A local edit with its value; the container applies it and records its key.
inductive Edit (K V : Type) where
  | add (key : K) (value : V)
  | update (key : K) (value : V)
  | remove (key : K)
  deriving DecidableEq

namespace Edit
variable {K V : Type}

def applied : Edit K V → Change K V
  | add key value => .add key (some value) .validNonSequence
  | update key value => .update key (some value) .validNonSequence
  | remove key => .remove key .validNonSequence

def recorded : Edit K V → Change K V
  | add key _ => .add key none .invalid
  | update key _ => .update key none .invalid
  | remove key => .remove key .invalid

theorem recorded_unsequenced {edits : List (Edit K V)} : ∀ change ∈ edits.map recorded, change.sequence = .invalid := by
  intro change member
  obtain ⟨edit,_,rfl⟩ := List.mem_map.mp member
  cases edit <;> rfl

end Edit

def ContainerStorage.applyEdits (storage : ContainerStorage K V) (values : storage.Values) (edits : List (Edit K V)) :
    storage.Values :=
  edits.foldl (fun values edit => storage.applyChange values edit.applied) values

theorem ContainerStorage.applyEdits_append (storage : ContainerStorage K V) (values : storage.Values)
    (first later : List (Edit K V)) :
    storage.applyEdits values (first ++ later) = storage.applyEdits (storage.applyEdits values first) later :=
  List.foldl_append

-- What a receiver decodes of a recorded change: its value is the one that stands at
-- its key when it is sent.
def ContainerStorage.carried [Inhabited V] (storage : ContainerStorage K V) (now : storage.Values) (change : Change K V) :
    Change K V :=
  if change.isLive then .update change.key (some ((storage.changeValue now change.key).getD default)) .invalid
  else .remove change.key .invalid

section Vectors
variable {α β V : Type}

-- Writing and removing do not look at the values.
def Vec.step (live : Bool) (index : Nat) (value : α) (values : List α) : List α :=
  if live then Vec.write index value values
  else if index < values.length then values.eraseIdx index else values

theorem Vec.step_map (change : α → β) (live : Bool) (index : Nat) (value : α) (values : List α) :
    (Vec.step live index value values).map change = Vec.step live index (change value) (values.map change) := by
  unfold Vec.step Vec.write
  rw [List.length_map]
  cases live with
  | true =>
    rw [if_pos rfl,if_pos rfl]
    split
    · exact List.map_set
    · split
      · exact List.map_append
      · rfl
  | false =>
    rw [if_neg Bool.false_ne_true,if_neg Bool.false_ne_true]
    split
    · exact (List.eraseIdx_map change values index).symm
    · rfl

theorem Vec.mem_step {entry : α} (present : entry ∈ Vec.step live index value values) : entry = value ∨ entry ∈ values := by
  unfold Vec.step Vec.write at present
  split at present
  · split at present
    · exact (List.mem_or_eq_of_mem_set present).symm
    · split at present
      · exact (List.mem_append.mp present).symm.imp_left List.mem_singleton.mp
      · exact .inr present
  · split at present
    · exact .inr (List.mem_of_mem_eraseIdx present)
    · exact .inr present

theorem Vec.applied_step (values : List V) (edit : Edit (BitVec 64) V) (value : V) :
    Vec.applyChange values edit.applied =
      Vec.step edit.recorded.isLive edit.recorded.key.toNat (edit.applied.value.getD value) values := by
  cases edit <;> rfl

theorem Vec.carried_step [Inhabited V] (values now : List V) (change : Change (BitVec 64) V) :
    Vec.applyChange values ((vecStorage V).carried now change) =
      Vec.step change.isLive change.key.toNat ((now[change.key.toNat]?).getD default) values := by
  cases change <;> rfl

-- Which index last wrote each element, if any did since the start.
def Vec.trace (changes : List (Change (BitVec 64) V)) (start : List (Option (BitVec 64))) : List (Option (BitVec 64)) :=
  changes.foldl (fun slots change => Vec.step change.isLive change.key.toNat (some change.key) slots) start

-- What stands at the index that wrote an element is the element's value.
def Vec.Stands [Inhabited V] (now : List V) : Option (BitVec 64) × V → Prop
  | (none,_) => True
  | (some key,value) => (now[key.toNat]?).getD default = value

instance [Inhabited V] [DecidableEq V] (now : List V) : (slot : Option (BitVec 64) × V) → Decidable (Vec.Stands now slot)
  | (none,_) => isTrue trivial
  | (some key,value) => inferInstanceAs (Decidable ((now[key.toNat]?).getD default = value))

def Vec.InPlace [Inhabited V] (changes : List (Change (BitVec 64) V)) (start now : List V) : Prop :=
  ∀ slot ∈ (Vec.trace changes (start.map fun _ => none)).zip now, Vec.Stands now slot

instance [Inhabited V] [DecidableEq V] (changes : List (Change (BitVec 64) V)) (start now : List V) :
    Decidable (Vec.InPlace changes start now) :=
  inferInstanceAs (Decidable (∀ slot ∈ (Vec.trace changes (start.map fun _ => none)).zip now, Vec.Stands now slot))

-- An element with its own value, the value it is sent with, and the index that
-- wrote it.
structure Vec.Slot (V : Type) where
  held : V
  sent : V
  writer : Option (BitVec 64)

def Vec.Slot.Filled (fill : BitVec 64 → V) (slot : Vec.Slot V) : Prop :=
  (slot.writer = none → slot.sent = slot.held) ∧ ∀ key, slot.writer = some key → slot.sent = fill key

-- The edits, what is sent of them and the trace are three views of one run.
theorem Vec.views [Inhabited V] (edits : List (Edit (BitVec 64) V)) (now : List V) (slots : List (Vec.Slot V))
    (filled : ∀ slot ∈ slots, slot.Filled fun key => (now[key.toNat]?).getD default) :
    ∃ final : List (Vec.Slot V), (∀ slot ∈ final, slot.Filled fun key => (now[key.toNat]?).getD default) ∧
      final.map Vec.Slot.held = (vecStorage V).applyEdits (slots.map Vec.Slot.held) edits ∧
      final.map Vec.Slot.sent = (vecStorage V).applyChanges (slots.map Vec.Slot.sent)
        ((edits.map Edit.recorded).map ((vecStorage V).carried now)) ∧
      final.map Vec.Slot.writer = Vec.trace (edits.map Edit.recorded) (slots.map Vec.Slot.writer) := by
  induction edits generalizing slots with
  | nil => exact ⟨slots,filled,rfl,rfl,rfl⟩
  | cons edit edits ih =>
    let written : Vec.Slot V :=
      ⟨edit.applied.value.getD default,(now[edit.recorded.key.toNat]?).getD default,some edit.recorded.key⟩
    let next := Vec.step edit.recorded.isLive edit.recorded.key.toNat written slots
    have filled_next : ∀ slot ∈ next, slot.Filled fun key => (now[key.toNat]?).getD default := by
      intro slot present
      rcases Vec.mem_step present with rfl | before
      · refine ⟨nofun,?_⟩
        intro key same
        cases same
        rfl
      · exact filled slot before
    obtain ⟨final,filled_final,held,sent,writer⟩ := ih next filled_next
    refine ⟨final,filled_final,?_,?_,?_⟩
    · rw [held,Vec.step_map]
      exact congrArg (fun values => (vecStorage V).applyEdits values edits) (Vec.applied_step _ edit default).symm
    · rw [sent,Vec.step_map]
      exact congrArg (fun values => (vecStorage V).applyChanges values _) (Vec.carried_step _ now edit.recorded).symm
    · rw [writer,Vec.step_map]
      rfl

theorem Vec.replays [Inhabited V] {edits : List (Edit (BitVec 64) V)} {start now : List V}
    (current : (vecStorage V).applyEdits start edits = now) :
    (vecStorage V).applyChanges start ((edits.map Edit.recorded).map ((vecStorage V).carried now)) = now ↔
      Vec.InPlace (edits.map Edit.recorded) start now := by
  let slots : List (Vec.Slot V) := start.map fun value => ⟨value,value,none⟩
  have filled : ∀ slot ∈ slots, slot.Filled fun key => (now[key.toNat]?).getD default := by
    intro slot present
    obtain ⟨value,_,rfl⟩ := List.mem_map.mp present
    exact ⟨fun _ => rfl,nofun⟩
  have held_start : slots.map Vec.Slot.held = start := by rw [List.map_map]; exact List.map_id start
  have sent_start : slots.map Vec.Slot.sent = start := by rw [List.map_map]; exact List.map_id start
  have writer_start : slots.map Vec.Slot.writer = start.map fun _ => none := by rw [List.map_map]; rfl
  obtain ⟨final,filled_final,held,sent,writer⟩ := Vec.views edits now slots filled
  rw [held_start,current] at held
  rw [sent_start] at sent
  rw [writer_start] at writer
  unfold Vec.InPlace
  rw [← sent,← writer]
  have same : final.map Vec.Slot.sent = now ↔ ∀ slot ∈ final, slot.sent = slot.held := by
    rw [← held]
    exact List.map_inj_left
  have zipped : (final.map Vec.Slot.writer).zip now = final.map fun slot => (slot.writer,slot.held) := by
    rw [← held]
    exact List.zip_map'
  rw [same,zipped]
  constructor
  · intro sent_held pair present
    obtain ⟨slot,member,rfl⟩ := List.mem_map.mp present
    cases wrote : slot.writer with
    | none => trivial
    | some key => exact ((filled_final slot member).2 key wrote).symm.trans (sent_held slot member)
  · intro in_place slot member
    cases wrote : slot.writer with
    | none => exact (filled_final slot member).1 wrote
    | some key =>
      have stands := in_place _ (List.mem_map_of_mem member)
      rw [wrote] at stands
      exact ((filled_final slot member).2 key wrote).trans stands

def Vec.fill [Inhabited V] (now : List V) : Option (BitVec 64) → V
  | none => default
  | some key => (now[key.toNat]?).getD default

theorem Vec.filled_trace [Inhabited V] (changes : List (Change (BitVec 64) V)) (now : List V)
    (slots : List (Option (BitVec 64))) :
    (vecStorage V).applyChanges (slots.map (Vec.fill now)) (changes.map ((vecStorage V).carried now)) =
      (Vec.trace changes slots).map (Vec.fill now) := by
  induction changes generalizing slots with
  | nil => rfl
  | cons change changes ih =>
    have written : Vec.applyChange (slots.map (Vec.fill now)) ((vecStorage V).carried now change) =
        (Vec.step change.isLive change.key.toNat (some change.key) slots).map (Vec.fill now) :=
      (Vec.carried_step _ now change).trans (Vec.step_map (Vec.fill now) _ _ (some change.key) _).symm
    refine Eq.trans ?_ (ih _)
    exact congrArg (fun values => (vecStorage V).applyChanges values (changes.map ((vecStorage V).carried now))) written

end Vectors

section Maps
open OrderedMap
variable {K V α β : Type} [DecidableEq K]

def Map.step (live : Bool) (key : K) (value : α) (entries : List (K × α)) : List (K × α) :=
  if live then put key value entries else drop key entries

theorem Map.step_keyed (change : K → α → β) (live : Bool) (key : K) (value : α) (entries : List (K × α)) :
    (Map.step live key value entries).map (fun entry => (entry.1,change entry.1 entry.2)) =
      Map.step live key (change key value) (entries.map fun entry => (entry.1,change entry.1 entry.2)) := by
  unfold Map.step
  cases live with
  | true => exact put_values change key value entries
  | false => exact drop_values change key entries

theorem Map.step_values (change : α → β) (live : Bool) (key : K) (value : α) (entries : List (K × α)) :
    (Map.step live key value entries).map (Prod.map id change) =
      Map.step live key (change value) (entries.map (Prod.map id change)) :=
  Map.step_keyed (fun _ => change) live key value entries

theorem Map.mem_step {entry : K × α} {entries : List (K × α)} (present : entry ∈ Map.step live key value entries) :
    entry = (key,value) ∨ entry ∈ entries := by
  unfold Map.step at present
  split at present
  · exact mem_put present
  · exact .inr (List.mem_filter.mp present).1

theorem Map.applied_step (values : OrderedMap K V) (edit : Edit K V) (value : V) :
    (Map.applyChange values edit.applied).entries =
      Map.step edit.recorded.isLive edit.recorded.key (edit.applied.value.getD value) values.entries := by
  cases edit <;> rfl

theorem Map.carried_step [Inhabited V] (values now : OrderedMap K V) (change : Change K V) :
    (Map.applyChange values ((indexMapStorage K V).carried now change)).entries =
      Map.step change.isLive change.key ((now.get change.key).getD default) values.entries := by
  cases change <;> rfl

-- Each entry with its own value and the value it is sent with.
theorem Map.views [Inhabited V] (edits : List (Edit K V)) (now : OrderedMap K V) (slots : List (K × V × V))
    (filled : ∀ slot ∈ slots, slot.2.2 = slot.2.1 ∨ slot.2.2 = (now.get slot.1).getD default)
    (held sent : OrderedMap K V) (held_start : slots.map (Prod.map id Prod.fst) = held.entries)
    (sent_start : slots.map (Prod.map id Prod.snd) = sent.entries) :
    ∃ final : List (K × V × V), (∀ slot ∈ final, slot.2.2 = slot.2.1 ∨ slot.2.2 = (now.get slot.1).getD default) ∧
      final.map (Prod.map id Prod.fst) = ((indexMapStorage K V).applyEdits held edits).entries ∧
      final.map (Prod.map id Prod.snd) = ((indexMapStorage K V).applyChanges sent
        ((edits.map Edit.recorded).map ((indexMapStorage K V).carried now))).entries := by
  induction edits generalizing slots held sent with
  | nil => exact ⟨slots,filled,held_start,sent_start⟩
  | cons edit edits ih =>
    let written : V × V := (edit.applied.value.getD default,(now.get edit.recorded.key).getD default)
    have filled_next : ∀ slot ∈ Map.step edit.recorded.isLive edit.recorded.key written slots,
        slot.2.2 = slot.2.1 ∨ slot.2.2 = (now.get slot.1).getD default := by
      intro slot present
      rcases Map.mem_step present with rfl | before
      · exact .inr rfl
      · exact filled slot before
    refine ih _ filled_next (Map.applyChange held edit.applied)
      (Map.applyChange sent ((indexMapStorage K V).carried now edit.recorded)) ?_ ?_
    · rw [Map.step_values,held_start]
      exact (Map.applied_step held edit default).symm
    · rw [Map.step_values,sent_start]
      exact (Map.carried_step sent now edit.recorded).symm

-- A map gets back the values that stand at its keys, in their order.
theorem Map.replays [Inhabited V] {edits : List (Edit K V)} {start now : OrderedMap K V}
    (current : (indexMapStorage K V).applyEdits start edits = now) :
    (indexMapStorage K V).applyChanges start ((edits.map Edit.recorded).map ((indexMapStorage K V).carried now)) = now := by
  let slots : List (K × V × V) := start.entries.map fun entry => (entry.1,entry.2,entry.2)
  have filled : ∀ slot ∈ slots, slot.2.2 = slot.2.1 ∨ slot.2.2 = (now.get slot.1).getD default := by
    intro slot present
    obtain ⟨entry,_,rfl⟩ := List.mem_map.mp present
    exact .inl rfl
  have held_start : slots.map (Prod.map id Prod.fst) = start.entries := by rw [List.map_map]; exact List.map_id _
  have sent_start : slots.map (Prod.map id Prod.snd) = start.entries := by rw [List.map_map]; exact List.map_id _
  obtain ⟨final,filled_final,held,sent⟩ := Map.views edits now slots filled start start held_start sent_start
  rw [current] at held
  apply OrderedMap.ext
  rw [← sent,← held]
  apply List.map_congr_left
  intro slot member
  have stands : now.get slot.1 = some slot.2.1 := by
    refine (find_some now.distinct).mpr ?_
    rw [← held]
    exact List.mem_map_of_mem member
  have same : slot.2.2 = slot.2.1 := by
    rcases filled_final slot member with own | fill
    · exact own
    · rw [fill,stands]
      rfl
  exact Prod.ext rfl same

-- The keys that are left of the changes.
def Map.trace (changes : List (Change K V)) (start : List (K × Unit)) : List (K × Unit) :=
  changes.foldl (fun slots change => Map.step change.isLive change.key () slots) start

def Map.filled [Inhabited V] (now : OrderedMap K V) (slots : List (K × Unit)) : List (K × V) :=
  slots.map fun slot => (slot.1,(now.get slot.1).getD default)

theorem Map.filled_trace [Inhabited V] (changes : List (Change K V)) (now built : OrderedMap K V) (slots : List (K × Unit))
    (start : built.entries = Map.filled now slots) :
    ((indexMapStorage K V).applyChanges built (changes.map ((indexMapStorage K V).carried now))).entries =
      Map.filled now (Map.trace changes slots) := by
  induction changes generalizing slots built with
  | nil => exact start
  | cons change changes ih =>
    apply ih (Map.applyChange built ((indexMapStorage K V).carried now change)) _
    rw [Map.carried_step,start]
    exact (Map.step_keyed (fun key _ => (now.get key).getD default) _ _ _ _).symm

theorem Map.filled_keys [Inhabited V] (now : OrderedMap K V) (slots : List (K × Unit)) :
    (Map.filled now slots).map Prod.fst = slots.map Prod.fst := by
  unfold Map.filled
  rw [List.map_map]
  rfl

-- Entries with the keys of a map, filled from it, are its entries.
theorem Map.filled_own [Inhabited V] {now : OrderedMap K V} {slots : List (K × Unit)}
    (same : slots.map Prod.fst = now.entries.map Prod.fst) : Map.filled now slots = now.entries := by
  have keyed : Map.filled now slots = (slots.map Prod.fst).map fun key => (key,(now.get key).getD default) := by
    rw [List.map_map]
    rfl
  rw [keyed,same,List.map_map]
  refine (List.map_congr_left ?_).trans (List.map_id _)
  intro entry member
  have stands : now.get entry.1 = some entry.2 := (find_some now.distinct).mpr member
  change (entry.1,(now.get entry.1).getD default) = entry
  rw [stands]
  rfl

theorem Map.applyChange_same {one two : OrderedMap K V} (same : ∀ key, one.get key = two.get key) (change : Change K V) :
    ∀ key, (Map.applyChange one change).get key = (Map.applyChange two change).get key := by
  intro key
  unfold Map.applyChange
  split
  · rw [get_insert,get_insert,same]
  · rw [get_insert,get_insert,same]
  · exact same key
  · exact same key
  · rw [get_shiftRemove,get_shiftRemove,same]

theorem map_back (key_codec : Codec MarshalerError K) (value_codec : Codec MarshalerError V) {values : OrderedMap K V}
    {entries : List (K × V)} (same : entries.Perm values.entries) (rest : Bytes) :
    unmarshalMap key_codec value_codec values.entries.length (entries.flatMap (marshalPair key_codec value_codec) ++ rest) =
      .ok (ofEntries entries,rest) := by
  have read := ReadsBack.times_flatMap entries (fun entry _ => pair_back key_codec value_codec entry) rest
  rw [same.length_eq] at read
  exact Reader.bind_ok read

end Maps

namespace StorageKind
variable {K V : Type}

-- Only a vector's elements move when others are removed.
def InPlace [Inhabited V] : (kind : StorageKind V K) → List (Change K V) → kind.storage.Values → kind.storage.Values → Prop
  | .vec,changes,start,now => Vec.InPlace changes start now
  | @hashMap _ _ _ _,_,_,_ => True
  | @indexMap _ _ _,_,_,_ => True

-- The changes alone, run on an empty container, make up the places of the values.
def Rebuilt [Inhabited V] : (kind : StorageKind V K) → List (Change K V) → kind.storage.Values → Prop
  | .vec,changes,now => (Vec.trace changes []).map (Vec.fill now) = now
  | @hashMap _ _ _ _,changes,now => ∀ key, key ∈ (Map.trace changes []).map Prod.fst ↔ key ∈ now.entries.map Prod.fst
  | @indexMap _ _ _,changes,now => (Map.trace changes []).map Prod.fst = now.entries.map Prod.fst

variable (kind : StorageKind V K)

theorem same_refl (values : kind.storage.Values) : kind.storage.Same values values := by
  cases kind with
  | vec => rfl
  | hashMap order => exact fun _ => rfl
  | indexMap => rfl

theorem same_symm {one two : kind.storage.Values} (same : kind.storage.Same one two) : kind.storage.Same two one := by
  cases kind with
  | vec => exact Eq.symm same
  | hashMap order => exact fun key => (same key).symm
  | indexMap => exact Eq.symm same

theorem same_trans {one two three : kind.storage.Values} (first : kind.storage.Same one two)
    (second : kind.storage.Same two three) : kind.storage.Same one three := by
  cases kind with
  | vec => exact Eq.trans first second
  | hashMap order => exact fun key => (first key).trans (second key)
  | indexMap => exact Eq.trans first second

theorem applyChanges_same {one two : kind.storage.Values} (same : kind.storage.Same one two) (changes : List (Change K V)) :
    kind.storage.Same (kind.storage.applyChanges one changes) (kind.storage.applyChanges two changes) := by
  cases kind with
  | vec => cases same; rfl
  | indexMap => cases same; rfl
  | hashMap order =>
    unfold ContainerStorage.applyChanges
    induction changes generalizing one two with
    | nil => exact same
    | cons change changes ih => exact ih (Map.applyChange_same same change)

theorem replays [Inhabited V] {edits : List (Edit K V)} {start now : kind.storage.Values}
    (current : kind.storage.applyEdits start edits = now) :
    kind.storage.Same (kind.storage.applyChanges start ((edits.map Edit.recorded).map (kind.storage.carried now))) now ↔
      kind.InPlace (edits.map Edit.recorded) start now := by
  cases kind with
  | vec => exact Vec.replays current
  | indexMap => exact ⟨fun _ => trivial,fun _ => Map.replays current⟩
  | hashMap order =>
    have same : (hashMapStorage order).applyChanges start
        ((edits.map Edit.recorded).map ((hashMapStorage order).carried now)) = now := Map.replays current
    exact ⟨fun _ => trivial,fun _ key => congrArg (OrderedMap.get · key) same⟩

theorem rebuilds [Inhabited V] (changes : List (Change K V)) (now : kind.storage.Values) :
    kind.storage.Same (kind.storage.applyChanges kind.storage.empty (changes.map (kind.storage.carried now))) now ↔
      kind.Rebuilt changes now := by
  cases kind with
  | vec =>
    have filled := Vec.filled_trace changes now []
    exact ⟨fun same => filled.symm.trans same,fun same => filled.trans same⟩
  | indexMap =>
    have filled := Map.filled_trace changes now .empty [] rfl
    constructor
    · intro same
      have keys := congrArg (List.map Prod.fst) (filled.symm.trans (congrArg OrderedMap.entries same))
      rw [Map.filled_keys] at keys
      exact keys
    · intro same
      exact OrderedMap.ext (filled.trans (Map.filled_own same))
  | hashMap order =>
    have filled := Map.filled_trace changes now .empty [] rfl
    have keys := congrArg (List.map Prod.fst) filled
    rw [Map.filled_keys] at keys
    constructor
    · intro same key
      have absent := congrArg (· = none) (same key)
      unfold OrderedMap.get at absent
      rw [OrderedMap.find_none,OrderedMap.find_none] at absent
      exact keys ▸ not_iff_not.mp (iff_of_eq absent)
    · intro same key
      cases found : now.get key with
      | none =>
        apply (OrderedMap.find_none _).mpr
        intro present
        apply (OrderedMap.find_none _).mp found
        exact (same key).mp (keys ▸ present)
      | some value =>
        have inside : key ∈ now.entries.map Prod.fst := List.mem_map_of_mem ((OrderedMap.find_some now.distinct).mp found)
        obtain ⟨slot,member,rfl⟩ := List.mem_map.mp ((same key).mpr inside)
        apply (OrderedMap.find_some (OrderedMap.distinct _)).mpr
        have built : (slot.1,value) ∈ Map.filled now (Map.trace changes []) := by
          refine List.mem_map.mpr ⟨slot,member,?_⟩
          rw [found]
          rfl
        exact filled.symm ▸ built

theorem entries_back (key_codec : Codec MarshalerError K) (value_codec : Codec MarshalerError V)
    (values : kind.storage.Values) : ∃ decoded, kind.storage.Same decoded values ∧ ∀ rest,
      kind.storage.unmarshalEntries key_codec value_codec (kind.storage.len values)
        (kind.storage.marshalEntries key_codec value_codec values ++ rest) = .ok (decoded,rest) := by
  cases kind with
  | vec => exact ⟨values,rfl,fun rest => ReadsBack.times_flatMap values (fun value _ => value_codec.readsBack value) rest⟩
  | indexMap =>
    refine ⟨OrderedMap.ofEntries values.entries,?_,fun rest => map_back key_codec value_codec (List.Perm.refl _) rest⟩
    exact OrderedMap.ext (OrderedMap.ofEntries_entries values.distinct)
  | hashMap order =>
    refine ⟨OrderedMap.ofEntries (order.entries values),?_,fun rest => map_back key_codec value_codec (order.all values) rest⟩
    intro key
    have distinct : ((order.entries values).map Prod.fst).Nodup :=
      ((order.all values).map Prod.fst).nodup_iff.mpr values.distinct
    unfold OrderedMap.get
    rw [OrderedMap.ofEntries_entries distinct]
    exact OrderedMap.get_perm (order.all values) key

end StorageKind
end NwNetwork.Serialize
