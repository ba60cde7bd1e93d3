import NwNetwork.HubReplicatedState
import NwNetwork.OrderedMap
import NwNetwork.StateRuns

namespace NwNetwork.Hub
open WireReader Serialize StateRuns

-- What is called on a header between its making and its marshaling.
inductive HeaderCall where
  | add (client_id : ClientActorHash) (group_idx : Nat)
  | remove (client_id : ClientActorHash) (group_idx : Nat)
  | clear (group_idx : Nat)
  | calculateDefaultBits (group_idx : Nat) (is_default_value : List Bool)
  deriving DecidableEq

def HeaderCall.groupIdx : HeaderCall → Nat
  | .add _ group_idx | .remove _ group_idx | .clear group_idx | .calculateDefaultBits group_idx _ => group_idx

namespace ReplicatedState

def call (hub : ReplicatedState) : HeaderCall → ReplicatedState
  | .add client_id group_idx => hub.addClientToReplicationWhitelist client_id group_idx
  | .remove client_id group_idx => hub.removeClientFromReplicationWhitelist client_id group_idx
  | .clear group_idx => hub.clearReplicationWhitelist group_idx
  | .calculateDefaultBits group_idx is_default_value => hub.calculateDefaultBits group_idx is_default_value

-- A new header with the groups of a layout.
def fresh (group_count : Nat) : ReplicatedState := new.ensureFilterGroups group_count

def history (group_count : Nat) (calls : List HeaderCall) : ReplicatedState := calls.foldl call (fresh group_count)

-- A group that the header does not have has no targets.
def whitelist (hub : ReplicatedState) (group_idx : Nat) : List FilterValue :=
  (hub.filterGroups[group_idx]?).elim [] ReplicatedFilterGroup.targets

theorem ensure_length (hub : ReplicatedState) (group_count : Nat) :
    (hub.ensureFilterGroups group_count).filterGroups.length =
      max hub.filterGroups.length (min group_count maxFiltergroupsPerReplicatedState) := by
  unfold ensureFilterGroups
  rw [List.length_append,List.length_replicate]
  omega

section Targets
open ReplicatedFilterGroup OrderedMap

def pairs (targets : List FilterValue) : List (ClientActorHash × BitVec 64) :=
  targets.map fun entry => (entry.value,entry.refCount)

-- A client has no entry, or a first one.
theorem targets_split (client_id : ClientActorHash) (targets : List FilterValue) :
    (targets.findIdx? (fun entry => entry.value == client_id) = none ∧ client_id ∉ (pairs targets).map Prod.fst) ∨
      ∃ front count back, targets = front ++ ⟨client_id,count⟩ :: back ∧ client_id ∉ (pairs front).map Prod.fst ∧
        targets.findIdx? (fun entry => entry.value == client_id) = some front.length := by
  induction targets with
  | nil => exact .inl ⟨rfl,List.not_mem_nil⟩
  | cons entry rest ih =>
    rw [List.findIdx?_cons]
    by_cases here : entry.value = client_id
    · rw [if_pos (by simpa using here)]
      exact .inr ⟨[],entry.refCount,rest,here ▸ rfl,List.not_mem_nil,rfl⟩
    · rw [if_neg (by simpa using here)]
      have apart : ∀ {others : List FilterValue}, client_id ∉ (pairs others).map Prod.fst →
          client_id ∉ (pairs (entry :: others)).map Prod.fst := by
        intro others absent present
        rcases List.mem_cons.mp present with same | later
        · exact here same.symm
        · exact absent later
      rcases ih with ⟨none_found,absent⟩ | ⟨front,count,back,rfl,absent,found⟩
      · exact .inl ⟨congrArg (Option.map (· + 1)) none_found,apart absent⟩
      · exact .inr ⟨entry :: front,count,back,rfl,apart absent,congrArg (Option.map (· + 1)) found⟩

theorem modify_split (change : FilterValue → FilterValue) (front : List FilterValue) (entry : FilterValue)
    (back : List FilterValue) : (front ++ entry :: back).modify front.length change = front ++ change entry :: back := by
  induction front with
  | nil => rfl
  | cons head front ih => exact congrArg (List.cons head) ih

theorem pairs_append (front back : List FilterValue) : pairs (front ++ back) = pairs front ++ pairs back := List.map_append

theorem addTarget_pairs (client_id : ClientActorHash) (targets : List FilterValue) :
    pairs (addTarget client_id targets).2 =
      put client_id ((find client_id (pairs targets)).elim 1 (FilterValue.saturatingAdd · 1)) (pairs targets) := by
  unfold addTarget
  rcases targets_split client_id targets with ⟨none_found,absent⟩ | ⟨front,count,back,rfl,absent,found⟩
  · rw [none_found,(find_none _).mpr absent,put_absent absent]
    exact pairs_append targets _
  · rw [found]
    dsimp only
    rw [modify_split,pairs_append,pairs_append]
    change _ = put client_id ((find client_id (pairs front ++ (client_id,count) :: pairs back)).elim _ _)
      (pairs front ++ (client_id,count) :: pairs back)
    rw [find_split absent,put_split absent]
    rfl

theorem removeTarget_pairs (client_id : ClientActorHash) {targets : List FilterValue}
    (distinct : ((pairs targets).map Prod.fst).Nodup) :
    pairs (removeTarget client_id targets).2 = match find client_id (pairs targets) with
      | none => pairs targets
      | some count => if 1 < count then put client_id (count - 1) (pairs targets) else drop client_id (pairs targets) := by
  unfold removeTarget
  rcases targets_split client_id targets with ⟨none_found,absent⟩ | ⟨front,count,back,rfl,absent,found⟩
  · rw [none_found,(find_none _).mpr absent]
  · have form : pairs (front ++ ⟨client_id,count⟩ :: back) = pairs front ++ (client_id,count) :: pairs back :=
      pairs_append front _
    rw [form,List.map_append,List.map_cons] at distinct
    have behind : client_id ∉ (pairs back).map Prod.fst :=
      (List.nodup_cons.mp (List.nodup_append.mp distinct).2.1).1
    rw [found,form,find_split absent]
    dsimp only
    rw [put_split absent,drop_split absent behind,List.getElem?_append_right (Nat.le_refl _),Nat.sub_self,
      List.getElem?_cons_zero,Option.any_some,modify_split,List.eraseIdx_append_of_length_le (Nat.le_refl _),Nat.sub_self,
      List.eraseIdx_cons_zero]
    by_cases several : 1 < count
    · rw [if_pos (decide_eq_true several),if_pos several,pairs_append]
      rfl
    · rw [if_neg (by simpa using several),if_neg several,pairs_append]

-- Only the client's own entry is touched, and the others keep their order.
def others (client_id : ClientActorHash) (targets : List FilterValue) : List FilterValue :=
  targets.filter fun entry => entry.value ≠ client_id

theorem others_split (client_id : ClientActorHash) (front back : List FilterValue) (count : BitVec 64) :
    others client_id (front ++ ⟨client_id,count⟩ :: back) = others client_id (front ++ back) := by
  unfold others
  rw [List.filter_append,List.filter_append,List.filter_cons_of_neg (by simp)]

theorem addTarget_others (client_id : ClientActorHash) (targets : List FilterValue) :
    others client_id (addTarget client_id targets).2 = others client_id targets := by
  unfold addTarget
  rcases targets_split client_id targets with ⟨none_found,_⟩ | ⟨front,count,back,rfl,_,found⟩
  · rw [none_found]
    have alone := others_split client_id targets [] 1
    rw [List.append_nil] at alone
    exact alone
  · rw [found]
    dsimp only
    rw [modify_split,others_split,others_split]

theorem removeTarget_others (client_id : ClientActorHash) (targets : List FilterValue) :
    others client_id (removeTarget client_id targets).2 = others client_id targets := by
  unfold removeTarget
  rcases targets_split client_id targets with ⟨none_found,_⟩ | ⟨front,count,back,rfl,_,found⟩
  · rw [none_found]
  · rw [found]
    dsimp only
    split
    · rw [modify_split,others_split,others_split]
    · rw [List.eraseIdx_append_of_length_le (Nat.le_refl _),Nat.sub_self,List.eraseIdx_cons_zero,others_split]

end Targets

section Calls
open ReplicatedFilterGroup

theorem accessTargets_targets (group : ReplicatedFilterGroup) (cb : List FilterValue → Bool × List FilterValue) :
    (group.accessTargets cb).targets = (cb group.targets).2 :=
  congrArg (Option.getD · []) (access_held group.targetsHeld cb).1

theorem whitelist_access (hub : ReplicatedState) (group_idx other : Nat) (cb : List FilterValue → Bool × List FilterValue) :
    (hub.accessTargets group_idx cb).whitelist other =
      if other = group_idx ∧ group_idx < hub.filterGroups.length then (cb (hub.whitelist group_idx)).2
      else hub.whitelist other := by
  unfold whitelist ReplicatedState.accessTargets
  rw [List.getElem?_modify]
  by_cases here : group_idx = other
  · subst here
    by_cases inside : group_idx < hub.filterGroups.length
    · simp [inside,accessTargets_targets]
    · simp [inside]
  · have apart : ¬other = group_idx := Ne.symm here
    simp [here,apart]

-- A group that is made has no targets.
theorem whitelist_ensure (hub : ReplicatedState) (group_count other : Nat) :
    (hub.ensureFilterGroups group_count).whitelist other = hub.whitelist other := by
  unfold whitelist ensureFilterGroups
  by_cases inside : other < hub.filterGroups.length
  · rw [List.getElem?_append_left inside]
  · rw [List.getElem?_append_right (Nat.le_of_not_lt inside),List.getElem?_eq_none (Nat.le_of_not_lt inside),
      List.getElem?_replicate]
    split <;> rfl

-- A callback that makes nothing of an empty list need not ask whether the group exists.
theorem whitelist_touch (hub : ReplicatedState) (group_idx other : Nat) {cb : List FilterValue → Bool × List FilterValue}
    (nothing : (cb []).2 = []) : (hub.accessTargets group_idx cb).whitelist other =
      if other = group_idx then (cb (hub.whitelist group_idx)).2 else hub.whitelist other := by
  rw [whitelist_access]
  by_cases here : other = group_idx
  · by_cases inside : group_idx < hub.filterGroups.length
    · rw [if_pos ⟨here,inside⟩,if_pos here]
    · have none_there : hub.whitelist group_idx = [] := by
        unfold whitelist
        rw [List.getElem?_eq_none (Nat.le_of_not_lt inside)]
        rfl
      rw [if_neg fun both => inside both.2,if_pos here,here,none_there,nothing]
  · rw [if_neg fun both => here both.1,if_neg here]

theorem whitelist_add (hub : ReplicatedState) (client_id : ClientActorHash) (group_idx other : Nat) :
    (hub.call (.add client_id group_idx)).whitelist other =
      if other = group_idx ∧ group_idx < maxFiltergroupsPerReplicatedState then
        (addTarget client_id (hub.whitelist group_idx)).2
      else hub.whitelist other := by
  refine (whitelist_access _ _ _ _).trans ?_
  rw [whitelist_ensure,whitelist_ensure,ensure_length]
  have bounded := hub.bounded
  have admitted : group_idx < max hub.filterGroups.length (min (group_idx + 1) maxFiltergroupsPerReplicatedState) ↔
      group_idx < maxFiltergroupsPerReplicatedState := by omega
  simp only [admitted]

theorem whitelist_remove (hub : ReplicatedState) (client_id : ClientActorHash) (group_idx other : Nat) :
    (hub.call (.remove client_id group_idx)).whitelist other =
      if other = group_idx then (removeTarget client_id (hub.whitelist group_idx)).2 else hub.whitelist other :=
  whitelist_touch hub group_idx other rfl

theorem whitelist_clear (hub : ReplicatedState) (group_idx other : Nat) :
    (hub.call (.clear group_idx)).whitelist other = if other = group_idx then [] else hub.whitelist other :=
  whitelist_touch hub group_idx other rfl

theorem whitelist_bits (hub : ReplicatedState) (group_idx other : Nat) (is_default_value : List Bool) :
    (hub.call (.calculateDefaultBits group_idx is_default_value)).whitelist other = hub.whitelist other := by
  unfold whitelist call ReplicatedState.calculateDefaultBits
  dsimp only
  rw [List.getElem?_modify]
  cases hub.filterGroups[other]? with
  | none => rfl
  | some group =>
    change ReplicatedFilterGroup.targets (if group_idx = other then _ else group) = group.targets
    split <;> rfl

end Calls
section References
open ReplicatedFilterGroup OrderedMap

-- How many references a client has in a group; one that is not listed has none.
def references (hub : ReplicatedState) (client_id : ClientActorHash) (group_idx : Nat) : Nat :=
  (find client_id (pairs (hub.whitelist group_idx))).elim 0 BitVec.toNat

-- The count that a call makes of a client's count in a group.
def counted (client_id : ClientActorHash) (group_idx count : Nat) : HeaderCall → Nat
  | .add client group => if client = client_id ∧ group = group_idx then count + 1 else count
  | .remove client group => if client = client_id ∧ group = group_idx then count - 1 else count
  | .clear group => if group = group_idx then 0 else count
  | .calculateDefaultBits _ _ => count

-- A counter that is added to is below its maximum.
def Room (hub : ReplicatedState) : HeaderCall → Prop
  | .add client_id group_idx => hub.references client_id group_idx + 1 < 2^64
  | _ => True

-- No client is listed twice, or without a reference.
structure Counted (hub : ReplicatedState) : Prop where
  distinct : ∀ group_idx, ((pairs (hub.whitelist group_idx)).map Prod.fst).Nodup
  referenced : ∀ group_idx client_id count, find client_id (pairs (hub.whitelist group_idx)) = some count → 0 < count.toNat

theorem listed_iff {hub : ReplicatedState} (keeps : Counted hub) (client_id : ClientActorHash) (group_idx : Nat) :
    client_id ∈ (hub.whitelist group_idx).map FilterValue.value ↔ 0 < hub.references client_id group_idx := by
  have keys : (pairs (hub.whitelist group_idx)).map Prod.fst = (hub.whitelist group_idx).map FilterValue.value := by
    unfold pairs
    rw [List.map_map]
    rfl
  have absent : find client_id (pairs (hub.whitelist group_idx)) = none ↔ _ := find_none _
  rw [keys] at absent
  unfold references
  cases found : find client_id (pairs (hub.whitelist group_idx)) with
  | none => exact ⟨fun member => absurd member (absent.mp found),fun none => absurd none (Nat.lt_irrefl 0)⟩
  | some count =>
    refine ⟨fun _ => keeps.referenced _ _ _ found,fun _ => ?_⟩
    by_contra outside
    rw [absent.mpr outside] at found
    cases found

section Lists
variable {client_id : ClientActorHash} {targets : List FilterValue}

theorem add_distinct (client_id : ClientActorHash) (distinct : ((pairs targets).map Prod.fst).Nodup) :
    ((pairs (addTarget client_id targets).2).map Prod.fst).Nodup := by
  rw [addTarget_pairs]
  exact put_distinct distinct _ _

theorem remove_distinct (client_id : ClientActorHash) (distinct : ((pairs targets).map Prod.fst).Nodup) :
    ((pairs (removeTarget client_id targets).2).map Prod.fst).Nodup := by
  rw [removeTarget_pairs client_id distinct]
  split
  · exact distinct
  · split
    · exact put_distinct distinct _ _
    · exact drop_distinct distinct _

theorem saturating_exact {count : BitVec 64} (room : count.toNat + 1 < 2^64) :
    (FilterValue.saturatingAdd count 1).toNat = count.toNat + 1 := by
  have one : (1 : BitVec 64).toNat = 1 := rfl
  unfold FilterValue.saturatingAdd
  rw [one,if_pos room,BitVec.toNat_add,one]
  exact Nat.mod_eq_of_lt room

theorem find_add (client_id other : ClientActorHash) (targets : List FilterValue) :
    find other (pairs (addTarget client_id targets).2) =
      if other = client_id then
        some ((find client_id (pairs targets)).elim 1 (FilterValue.saturatingAdd · 1))
      else find other (pairs targets) := by
  rw [addTarget_pairs]
  exact find_put _ _ _ _

theorem find_remove (other : ClientActorHash) (distinct : ((pairs targets).map Prod.fst).Nodup) :
    find other (pairs (removeTarget client_id targets).2) =
      if other = client_id then
        (find client_id (pairs targets)).bind fun count => if 1 < count then some (count - 1) else none
      else find other (pairs targets) := by
  rw [removeTarget_pairs client_id distinct]
  cases found : find client_id (pairs targets) with
  | none =>
    by_cases same : other = client_id
    · rw [if_pos same,same]
      exact found
    · exact (if_neg same).symm
  | some count =>
    dsimp only [Option.bind_some]
    split
    · exact find_put _ _ _ _
    · exact find_drop _ _ _

theorem count_added {held : Option (BitVec 64)} (room : held.elim 0 BitVec.toNat + 1 < 2^64) :
    (held.elim 1 (FilterValue.saturatingAdd · 1)).toNat = held.elim 0 BitVec.toNat + 1 := by
  cases held with
  | none => rfl
  | some count => exact saturating_exact room

theorem count_removed {held : Option (BitVec 64)} :
    (held.bind fun count => if 1 < count then some (count - 1) else none).elim 0 BitVec.toNat =
      held.elim 0 BitVec.toNat - 1 := by
  cases held with
  | none => rfl
  | some count =>
    have several : (1 < count) ↔ 1 < count.toNat := Iff.rfl
    rw [Option.bind_some]
    by_cases more : 1 < count
    · rw [if_pos more]
      exact BitVec.toNat_sub_of_le (BitVec.le_of_lt more)
    · rw [if_neg more]
      have few : count.toNat ≤ 1 := Nat.le_of_not_lt fun above => more (several.mpr above)
      exact (Nat.sub_eq_zero_of_le few).symm

end Lists

-- What one call does to every count.
theorem references_call {hub : ReplicatedState} {action : HeaderCall} (keeps : Counted hub) (room : Room hub action)
    (client_id : ClientActorHash) (accepted : group_idx < maxFiltergroupsPerReplicatedState) :
    (hub.call action).references client_id group_idx =
      counted client_id group_idx (hub.references client_id group_idx) action := by
  unfold references
  cases action with
  | add client group =>
    rw [whitelist_add]
    change _ = if _ then _ else _
    by_cases here : group = group_idx
    · subst here
      rw [if_pos ⟨rfl,accepted⟩,find_add]
      by_cases same : client = client_id
      · subst same
        rw [if_pos rfl,if_pos ⟨rfl,rfl⟩]
        exact count_added room
      · rw [if_neg (Ne.symm same),if_neg fun both => same both.1]
    · rw [if_neg fun both => here both.1.symm,if_neg fun both => here both.2]
  | remove client group =>
    rw [whitelist_remove]
    change _ = if _ then _ else _
    by_cases here : group = group_idx
    · subst here
      rw [if_pos rfl,find_remove _ (keeps.distinct group)]
      by_cases same : client = client_id
      · subst same
        rw [if_pos rfl,if_pos ⟨rfl,rfl⟩]
        exact count_removed
      · rw [if_neg (Ne.symm same),if_neg fun both => same both.1]
    · rw [if_neg (Ne.symm here),if_neg fun both => here both.2]
  | clear group =>
    rw [whitelist_clear]
    change _ = if _ then _ else _
    by_cases here : group = group_idx
    · rw [if_pos here.symm,if_pos here]
      rfl
    · rw [if_neg (Ne.symm here),if_neg here]
  | calculateDefaultBits group is_default_value =>
    rw [whitelist_bits]
    rfl

-- A call puts one list in place of those it picks.
theorem counted_replaced {hub next : ReplicatedState} {targets : List FilterValue} {picked : Nat → Prop} [DecidablePred picked] (keeps : Counted hub)
    (replaced : ∀ other, next.whitelist other = if picked other then targets else hub.whitelist other)
    (distinct : ((pairs targets).map Prod.fst).Nodup)
    (referenced : ∀ client_id count, find client_id (pairs targets) = some count → 0 < count.toNat) : Counted next := by
  constructor
  · intro group_idx
    rw [replaced]
    split
    · exact distinct
    · exact keeps.distinct group_idx
  · intro group_idx client_id count found
    rw [replaced] at found
    split at found
    · exact referenced client_id count found
    · exact keeps.referenced group_idx client_id count found

theorem counted_call {hub : ReplicatedState} {action : HeaderCall} (keeps : Counted hub) (room : Room hub action) :
    Counted (hub.call action) := by
  cases action with
  | add client group =>
    apply counted_replaced keeps (whitelist_add hub client group) (add_distinct client (keeps.distinct group))
    intro client_id count found
    rw [find_add] at found
    split at found
    · cases found
      rw [count_added room]
      exact Nat.succ_pos _
    · exact keeps.referenced group client_id count found
  | remove client group =>
    apply counted_replaced keeps (whitelist_remove hub client group) (remove_distinct client (keeps.distinct group))
    intro client_id count found
    rw [find_remove _ (keeps.distinct group)] at found
    split at found
    · obtain ⟨held,_,kept⟩ := Option.bind_eq_some_iff.mp found
      split at kept
      · rename_i more
        cases kept
        have above : 1 < held.toNat := more
        have less : (held - 1).toNat = held.toNat - 1 := BitVec.toNat_sub_of_le (BitVec.le_of_lt more)
        omega
      · cases kept
    · exact keeps.referenced group client_id count found
  | clear group =>
    apply counted_replaced keeps (whitelist_clear hub group) List.nodup_nil
    intro client_id count found
    cases found
  | calculateDefaultBits group is_default_value =>
    have same : ∀ other, (hub.call (.calculateDefaultBits group is_default_value)).whitelist other = hub.whitelist other :=
      fun other => whitelist_bits hub group other is_default_value
    exact ⟨fun group_idx => by rw [same]; exact keeps.distinct group_idx,
      fun group_idx client_id count found => keeps.referenced group_idx client_id count (same group_idx ▸ found)⟩

-- What a call leaves alone: the other groups, and on its group the entries of the
-- other clients in their order.
structure Spared (hub : ReplicatedState) (action : HeaderCall) : Prop where
  groups : ∀ other, other ≠ action.groupIdx → (hub.call action).whitelist other = hub.whitelist other ∧
    ∀ group, hub.filterGroups[other]? = some group → (hub.call action).filterGroups[other]? = some group
  clients : ∀ client_id group_idx, action = .add client_id group_idx ∨ action = .remove client_id group_idx →
    others client_id ((hub.call action).whitelist group_idx) = others client_id (hub.whitelist group_idx)

theorem modify_other {groups : List ReplicatedFilterGroup} (change : ReplicatedFilterGroup → ReplicatedFilterGroup)
    (apart : other ≠ group_idx) : (groups.modify group_idx change)[other]? = groups[other]? := by
  rw [List.getElem?_modify]
  simp [Ne.symm apart]

theorem call_spares (hub : ReplicatedState) (action : HeaderCall) : Spared hub action := by
  constructor
  · intro other apart
    cases action with
    | add client group =>
      refine ⟨(whitelist_add _ _ _ _).trans (if_neg fun both => apart both.1),fun record found => ?_⟩
      refine (modify_other _ apart).trans ?_
      have inside := (List.getElem?_eq_some_iff.mp found).1
      exact (List.getElem?_append_left inside).trans found
    | remove client group =>
      exact ⟨(whitelist_remove _ _ _ _).trans (if_neg apart),fun record found => (modify_other _ apart).trans found⟩
    | clear group =>
      exact ⟨(whitelist_clear _ _ _).trans (if_neg apart),fun record found => (modify_other _ apart).trans found⟩
    | calculateDefaultBits group is_default_value =>
      exact ⟨whitelist_bits _ _ _ _,fun record found => (modify_other _ apart).trans found⟩
  · rintro client_id group_idx (rfl | rfl)
    · rw [whitelist_add]
      split
      · exact addTarget_others client_id _
      · rfl
    · rw [whitelist_remove,if_pos rfl]
      exact removeTarget_others client_id _

-- The calls since a client was last absent from a group.
def sinceAbsent (client_id : ClientActorHash) (group_idx : Nat) :
    ReplicatedState → List HeaderCall → List HeaderCall → List HeaderCall
  | _,since,[] => since
  | hub,since,action :: calls =>
    let next := hub.call action
    sinceAbsent client_id group_idx next
      (if client_id ∈ (next.whitelist group_idx).map FilterValue.value then since ++ [action] else []) calls

theorem since_run {hub : ReplicatedState} {calls : List HeaderCall} (since : List HeaderCall) (keeps : Counted hub)
    (room : EachAction call hub calls Room) (accepted : group_idx < maxFiltergroupsPerReplicatedState)
    (balance : hub.references client_id group_idx + since.count (.remove client_id group_idx) =
      since.count (.add client_id group_idx)) :
    Counted (calls.foldl call hub) ∧
      (calls.foldl call hub).references client_id group_idx +
          (sinceAbsent client_id group_idx hub since calls).count (.remove client_id group_idx) =
        (sinceAbsent client_id group_idx hub since calls).count (.add client_id group_idx) := by
  induction calls generalizing hub since with
  | nil => exact ⟨keeps,balance⟩
  | cons action calls ih =>
    obtain ⟨here,later⟩ := each_cons.mp room
    have next := counted_call keeps here
    have step := references_call keeps here client_id accepted
    apply ih _ next later
    have listed := listed_iff next client_id group_idx
    split
    · rename_i member
      have held := listed.mp member
      rw [step] at held ⊢
      rw [List.count_append,List.count_append,List.count_singleton,List.count_singleton]
      unfold counted at held ⊢
      cases action with
      | add client group =>
        by_cases own : client = client_id ∧ group = group_idx
        · simp [own]
          omega
        · simpa [own] using balance
      | remove client group =>
        by_cases own : client = client_id ∧ group = group_idx
        · simp [own] at held ⊢
          omega
        · simpa [own] using balance
      | clear group =>
        by_cases own : group = group_idx
        · simp [own] at held
        · simpa [own] using balance
      | calculateDefaultBits group is_default_value => simpa using balance
    · rename_i absent
      have gone : (hub.call action).references client_id group_idx = 0 :=
        Nat.eq_zero_of_not_pos fun held => absent (listed.mpr held)
      rw [gone]
      rfl

theorem fresh_whitelist (group_count group_idx : Nat) : (fresh group_count).whitelist group_idx = [] := by
  unfold fresh
  rw [whitelist_ensure]
  cases group_idx <;> rfl

end References
end ReplicatedState
end NwNetwork.Hub
