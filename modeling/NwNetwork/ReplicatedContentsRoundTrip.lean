import NwNetwork.ReplicatedContents
import Mathlib.Data.List.GetD

namespace NwNetwork.Serialize.ReplicatedState
open WireReader ByteBits Hub

-- The state a receiver has built when those fields of a list that were sent
-- have arrived.
def overlay {schema : Schema} (base decoded : ReplicatedState schema) (sent : Fin schema.count → Bool)
    (fields : List (Fin schema.count)) : ReplicatedState schema :=
  fun i => if i ∈ fields ∧ sent i = true then decoded i else base i

section Overlay
variable {schema : Schema} {base decoded : ReplicatedState schema} {sent : Fin schema.count → Bool}
variable {fields later : List (Fin schema.count)}

theorem overlay_nil : overlay base decoded sent [] = base := by
  funext i
  simp [overlay]

theorem overlay_append :
    overlay (overlay base decoded sent fields) decoded sent later = overlay base decoded sent (fields ++ later) := by
  funext i
  unfold overlay
  by_cases dirty : sent i = true <;> by_cases early : i ∈ fields <;> by_cases late : i ∈ later <;> simp [dirty,early,late]

theorem overlay_clear (clear : fields.any sent = false) : overlay base decoded sent fields = base := by
  funext i
  unfold overlay
  rw [if_neg]
  intro ⟨member,dirty⟩
  rw [List.any_eq_false] at clear
  exact clear i member dirty

theorem set_overlay {i : Fin schema.count} (dirty : sent i = true) :
    base.set i (decoded i) = overlay base decoded sent [i] := by
  funext j
  unfold overlay
  by_cases same : j = i
  · subst same
    rw [set_same,if_pos ⟨List.mem_singleton.mpr rfl,dirty⟩]
  · rw [set_other base same,if_neg fun sent => same (List.mem_singleton.mp sent.1)]

end Overlay

-- A mask read at a position tells which of the fields from there on are dirty,
-- and whether any of a later mask is.
def MaskFor {schema : Schema} (dirty : Fin schema.count → Bool) (field_mask : UInt8) (position : Nat)
    (fields : List (Fin schema.count)) : Prop :=
  (∀ j, position + j < 7 → hasBit field_mask (position + j) = (fields.map dirty).getD j false) ∧
    (field_mask &&& 0x80 == 0) = !(fields.drop (7 - position)).any dirty

section Masks
variable {schema : Schema} {dirty : Fin schema.count → Bool} {fields : List (Fin schema.count)} {field_mask : UInt8}

theorem fieldMask_for : MaskFor dirty (fieldMask dirty fields) 0 fields := by
  have fits : ((fields.take 7).map dirty).length ≤ 8 := by simp
  constructor
  · intro j small
    have here : ((fields.take 7).map dirty).getD j false = (fields.map dirty).getD j false := by
      rw [List.map_take,List.getD_eq_getElem?_getD,List.getD_eq_getElem?_getD,List.getElem?_take_of_lt (by omega)]
    have apart : ¬7 = j := by omega
    rw [Nat.zero_add,← here,← flags_read fits (by omega : j < 8)]
    unfold fieldMask
    dsimp only
    split
    · rw [hasBit_or,hasBit_top (by omega),decide_eq_false apart,Bool.or_false]
    · rfl
  · have last : ((fields.take 7).map dirty).getD 7 false = false := by
      rw [List.getD_eq_getElem?_getD,List.getElem?_eq_none (by simp)]
      rfl
    rw [top_bit]
    unfold fieldMask
    dsimp only
    split
    · rename_i later
      rw [hasBit_or,hasBit_top (by decide),later,decide_eq_true rfl,Bool.or_true]
    · rename_i later
      rw [flags_read fits (by decide),last,Bool.eq_false_iff.mpr later]

theorem maskFor_tail {i : Fin schema.count} (position : k < 6) (mask : MaskFor dirty field_mask k (i :: fields)) :
    MaskFor dirty field_mask (k + 1) fields := by
  constructor
  · intro j small
    have read := mask.1 (j + 1) (by omega)
    rw [show k + (j + 1) = k + 1 + j by omega] at read
    exact read
  · have later := mask.2
    rw [show 7 - k = (7 - (k + 1)) + 1 by omega] at later
    exact later

theorem maskFor_head {i : Fin schema.count} (position : k < 7) (mask : MaskFor dirty field_mask k (i :: fields)) :
    hasBit field_mask k = dirty i := mask.1 0 position

theorem fieldMask_zero_iff : fieldMask dirty fields = 0 ↔ fields.any dirty = false := by
  constructor
  · intro zero
    have mask : MaskFor dirty (fieldMask dirty fields) 0 fields := fieldMask_for
    rw [zero] at mask
    have late : (fields.drop 7).any dirty = false := by
      have none := mask.2.symm
      rwa [show ((0 : UInt8) &&& 0x80 == 0) = true by decide,Bool.not_eq_true'] at none
    rw [← List.take_append_drop 7 fields,List.any_append,late,Bool.or_false,List.any_eq_false]
    intro i member set
    obtain ⟨j,bound,rfl⟩ := List.mem_iff_getElem.mp member
    rw [List.length_take] at bound
    have read := mask.1 j (by omega)
    rw [hasBit_zero,List.getD_eq_getElem _ _ (by simp; omega)] at read
    simp only [List.getElem_map] at read
    rw [List.getElem_take] at set
    rw [set] at read
    cases read
  · intro clear
    rw [← List.take_append_drop 7 fields,List.any_append,Bool.or_eq_false_iff] at clear
    unfold fieldMask
    dsimp only
    rw [clear.2,if_neg Bool.false_ne_true]
    apply maskFrom_clear
    rw [List.any_map]
    exact clear.1

end Masks

section Groups
variable {schema : Schema} {mc : MarshalContext} {state base decoded : ReplicatedState schema}
variable {dirty : Fin schema.count → Bool} {fields : List (Fin schema.count)}

theorem unmarshalField_reads {i : Fin schema.count} (back : dirty i = true → (schema.type i).ReadsAs (state i) (decoded i))
    (bit : hasBit field_mask (field_index % 7) = dirty i) (rest : Bytes) :
    base.unmarshalField field_mask field_index i (state.payloads dirty [i] ++ rest) =
      .ok (overlay base decoded dirty [i],rest) := by
  unfold unmarshalField payloads
  rw [bit]
  cases sent : dirty i with
  | false =>
    rw [overlay_clear (by simp [sent]),List.filter_cons_of_neg (by simp [sent])]
    rfl
  | true =>
    rw [List.filter_cons_of_pos sent,← set_overlay sent]
    simp only [List.filter_nil,List.flatMap_cons,List.flatMap_nil,List.append_nil]
    exact Reader.bind_ok (back sent rest)

theorem unmarshalGroupFields_done (field_count : Nat) (fields : List (Fin schema.count)) (field_index : Nat)
    (field_mask : UInt8) (base : ReplicatedState schema) (bytes : Bytes) :
    unmarshalGroupFields field_count fields field_index field_mask true base bytes = .ok ((base,true),bytes) := by
  induction fields generalizing field_index with
  | nil => rfl
  | cons i fields ih => exact ih (field_index + 1)

theorem marshalFieldChunks_clear (clear : fields.any dirty = false) (count : Nat) :
    state.marshalFieldChunks dirty count false fields = [] := by
  induction count generalizing fields with
  | zero => rfl
  | succ count ih =>
    unfold marshalFieldChunks
    rw [fieldMask_zero_iff.mpr clear]
    rw [← List.take_append_drop 7 fields,List.any_append,Bool.or_eq_false_iff] at clear
    exact ih clear.2

-- A mask is written for the fields that are left when it is the first one or
-- any of them is dirty.
theorem marshalFieldChunks_written (written : is_first = true ∨ fields.any dirty = true) (count : Nat) :
    state.marshalFieldChunks dirty (count + 1) is_first fields =
      fieldMask dirty fields :: (state.payloads dirty (fields.take 7) ++
        state.marshalFieldChunks dirty count false (fields.drop 7)) := by
  have write : (is_first || fieldMask dirty fields != 0) = true := by
    rcases written with rfl | some
    · rfl
    · rw [Bool.or_eq_true,bne_iff_ne,ne_eq,fieldMask_zero_iff,some]
      exact .inr (by decide)
  rw [marshalFieldChunks,if_pos write]
  simp [writeU8]

-- The loop body once the mask of the field is known.
def readMasked (field_count field_index : Nat) (i : Fin schema.count) (fields : List (Fin schema.count))
    (base : ReplicatedState schema) (field_mask : UInt8) : Read (ReplicatedState schema × Bool) := do
  let state ← base.unmarshalField field_mask field_index i
  let descriptor_done := (field_index % 7 == 6 || field_index + 1 == field_count) && field_mask &&& 0x80 == 0
  unmarshalGroupFields field_count fields (field_index+1) field_mask descriptor_done state

theorem unmarshalGroupFields_cons (field_count field_index : Nat) (i : Fin schema.count) (fields : List (Fin schema.count))
    (field_mask : UInt8) (base : ReplicatedState schema) :
    unmarshalGroupFields field_count (i :: fields) field_index field_mask false base =
      unmarshalFieldMask field_mask field_index >>= readMasked field_count field_index i fields base := rfl

-- A mask is read at every seventh field.
theorem chunk_reads {i : Fin schema.count} (start : field_index % 7 = 0)
    (written : is_first = true ∨ (i :: fields).any dirty = true)
    (reads : readMasked field_count field_index i fields base (fieldMask dirty (i :: fields))
      (state.payloads dirty ((i :: fields).take 7) ++
        (state.marshalFieldChunks dirty count false ((i :: fields).drop 7) ++ rest)) = .ok result) :
    unmarshalGroupFields field_count (i :: fields) field_index field_mask false base
      (state.marshalFieldChunks dirty (count + 1) is_first (i :: fields) ++ rest) = .ok result := by
  rw [marshalFieldChunks_written written,unmarshalGroupFields_cons,List.cons_append,List.append_assoc]
  unfold unmarshalFieldMask
  rw [if_pos start]
  exact (Reader.bind_ok (readU8_cons _ _)).trans reads

theorem payloads_cons (i : Fin schema.count) (fields : List (Fin schema.count)) :
    state.payloads dirty (i :: fields) = state.payloads dirty [i] ++ state.payloads dirty fields := by
  unfold payloads
  rw [← List.flatMap_append,← List.filter_append]
  rfl

theorem payloads_clear (clear : fields.any dirty = false) : state.payloads dirty fields = [] := by
  unfold payloads
  rw [List.any_eq_false] at clear
  rw [List.filter_eq_nil_iff.mpr clear]
  rfl

theorem masked_reads {i : Fin schema.count}
    (back : ∀ j ∈ i :: fields, dirty j = true → (schema.type j).ReadsAs (state j) (decoded j))
    (mask : MaskFor dirty field_mask (field_index % 7) (i :: fields))
    (last : field_index + (i :: fields).length = field_count)
    (enough : ((i :: fields).drop (7 - field_index % 7)).length ≤ 7*count) (rest : Bytes) :
    readMasked field_count field_index i fields base field_mask
        (state.payloads dirty ((i :: fields).take (7 - field_index % 7)) ++
          (state.marshalFieldChunks dirty count false ((i :: fields).drop (7 - field_index % 7)) ++ rest)) =
      .ok ((overlay base decoded dirty (i :: fields),true),rest) := by
  induction fields generalizing i field_index field_mask count base with
  | nil =>
    have position := Nat.mod_lt field_index (show 0 < 7 by decide)
    have more := mask.2
    obtain ⟨left,within⟩ : ∃ left, 7 - field_index % 7 = left + 1 := ⟨6 - field_index % 7,by omega⟩
    rw [within] at more ⊢
    rw [List.take_succ_cons,List.drop_succ_cons,List.take_nil,List.drop_nil,marshalFieldChunks_clear rfl]
    rw [List.drop_succ_cons,List.drop_nil] at more
    unfold readMasked
    rw [Reader.bind_ok (unmarshalField_reads (back i List.mem_cons_self) (maskFor_head position mask) _)]
    have ends : field_index + 1 = field_count := last
    rw [more,ends,beq_self_eq_true,Bool.or_true]
    rfl
  | cons next fields ih =>
    have position := Nat.mod_lt field_index (show 0 < 7 by decide)
    have more := mask.2
    have others_back : ∀ j ∈ next :: fields, dirty j = true → (schema.type j).ReadsAs (state j) (decoded j) :=
      fun j member => back j (List.mem_cons_of_mem _ member)
    have behind : overlay (overlay base decoded dirty [i]) decoded dirty (next :: fields) =
        overlay base decoded dirty (i :: next :: fields) := overlay_append
    have unfinished : (field_index + 1 == field_count) = false := by
      simp only [List.length_cons] at last
      simp
      omega
    obtain ⟨left,within⟩ : ∃ left, 7 - field_index % 7 = left + 1 := ⟨6 - field_index % 7,by omega⟩
    rw [within] at more enough ⊢
    rw [List.drop_succ_cons] at more enough
    rw [List.take_succ_cons,List.drop_succ_cons,payloads_cons,List.append_assoc]
    unfold readMasked
    rw [Reader.bind_ok (unmarshalField_reads (back i List.mem_cons_self) (maskFor_head position mask) _)]
    rw [more,unfinished,Bool.or_false,← behind]
    have following : field_index + 1 + (next :: fields).length = field_count := by
      simp only [List.length_cons] at last ⊢
      omega
    cases left with
    | zero =>
      -- The last field of its mask: another mask follows, or nothing more is dirty.
      have seventh : field_index % 7 = 6 := by omega
      have start : (field_index + 1) % 7 = 0 := by omega
      rw [List.drop_zero,List.take_zero,payloads_clear rfl,List.nil_append,seventh,beq_self_eq_true,Bool.true_and]
      cases others : (next :: fields).any dirty with
      | false =>
        rw [marshalFieldChunks_clear others,overlay_clear others]
        exact unmarshalGroupFields_done _ _ _ _ _ _
      | true =>
        obtain ⟨count,rfl⟩ : ∃ more, count = more + 1 := by
          simp only [List.drop_zero,List.length_cons] at enough
          exact ⟨count - 1,by omega⟩
        have remaining : ((next :: fields).drop (7 - (field_index + 1) % 7)).length ≤ 7*count := by
          rw [start]
          simp only [List.drop_zero,List.length_cons,List.length_drop] at enough ⊢
          omega
        have whole : 7 - (field_index + 1) % 7 = 7 := by omega
        apply chunk_reads start (.inr others)
        rw [← whole]
        exact ih others_back (start.symm ▸ fieldMask_for) following remaining
    | succ left =>
      have inside : field_index % 7 < 6 := by omega
      have step : (field_index + 1) % 7 = field_index % 7 + 1 := by omega
      have same : 7 - (field_index + 1) % 7 = left + 1 := by omega
      have early : (field_index % 7 == 6) = false := by
        simp
        omega
      rw [early,Bool.false_and,unmarshalGroupFields_cons]
      unfold unmarshalFieldMask
      rw [if_neg (by omega),← same]
      exact ih others_back (step.symm ▸ maskFor_tail inside mask) following (same.symm ▸ enough)

theorem group_reads (back : ∀ i ∈ schema.fieldsOf group_idx, state.fieldDirty mc i = true →
      (schema.type i).ReadsAs (state i) (decoded i))
    (some : schema.fieldsOf group_idx ≠ []) (rest : Bytes) :
    unmarshalGroup group_idx base (state.marshalGroup mc group_idx ++ rest) =
      .ok (overlay base decoded (state.fieldDirty mc) (schema.fieldsOf group_idx),rest) := by
  unfold unmarshalGroup marshalGroup
  dsimp only
  cases found : schema.fieldsOf group_idx with
  | nil => exact absurd found some
  | cons i fields =>
    rw [found] at back
    obtain ⟨count,exact_count⟩ : ∃ count, ((i :: fields).length + 6) / 7 = count + 1 := by
      simp only [List.length_cons]
      exact ⟨(fields.length + 7) / 7 - 1,by omega⟩
    have enough : ((i :: fields).drop 7).length ≤ 7*count := by
      simp only [List.length_drop]
      omega
    have ran : unmarshalGroupFields (i :: fields).length (i :: fields) 0 0 false base
        (state.marshalFieldChunks (state.fieldDirty mc) (count + 1) true (i :: fields) ++ rest) =
        .ok ((overlay base decoded (state.fieldDirty mc) (i :: fields),true),rest) :=
      chunk_reads rfl (.inl rfl) (masked_reads back fieldMask_for (Nat.zero_add _) enough rest)
    rw [exact_count,Reader.bind_ok ran]
    simp only [Bool.not_true,Bool.and_false]
    rfl

theorem described_reads (back : ∀ i, state.fieldSent mc i = true → (schema.type i).ReadsAs (state i) (decoded i))
    (bit : hasBit descriptor_mask (group_idx % 8) = state.descriptorDirty mc group_idx) (rest : Bytes) :
    unmarshalDescribed descriptor_mask group_idx base
        (([group_idx].filter (state.descriptorDirty mc)).flatMap (state.marshalGroup mc) ++ rest) =
      .ok (overlay base decoded (state.fieldSent mc) (schema.fieldsOf group_idx),rest) := by
  unfold unmarshalDescribed
  rw [bit]
  cases dirty : state.descriptorDirty mc group_idx with
  | false =>
    have clear : (schema.fieldsOf group_idx).any (state.fieldSent mc) = false := by
      rw [List.any_eq_false]
      intro i member
      rw [Schema.mem_fieldsOf] at member
      simp [fieldSent,member,dirty]
    rw [overlay_clear clear,List.filter_cons_of_neg (by simp [dirty])]
    rfl
  | true =>
    have some : schema.fieldsOf group_idx ≠ [] := by
      intro none
      simp [descriptorDirty,none] at dirty
    have same : overlay base decoded (state.fieldDirty mc) (schema.fieldsOf group_idx) =
        overlay base decoded (state.fieldSent mc) (schema.fieldsOf group_idx) := by
      funext i
      unfold overlay
      by_cases member : i ∈ schema.fieldsOf group_idx
      · have here := Schema.mem_fieldsOf.mp member
        simp [member,fieldSent,here,dirty]
      · simp [member]
    rw [List.filter_cons_of_pos dirty,if_pos rfl,if_neg some,← same]
    simp only [List.filter_nil,List.flatMap_cons,List.flatMap_nil,List.append_nil]
    have sent : ∀ i ∈ schema.fieldsOf group_idx, state.fieldDirty mc i = true →
        (schema.type i).ReadsAs (state i) (decoded i) := by
      intro i member changed
      apply back i
      rw [fieldSent,Schema.mem_fieldsOf.mp member,dirty,changed]
      rfl
    exact group_reads sent some rest

theorem groups_reads (back : ∀ i, state.fieldSent mc i = true → (schema.type i).ReadsAs (state i) (decoded i))
    {groups : List Nat} (base : ReplicatedState schema)
    (bits : ∀ group_idx ∈ groups, hasBit descriptor_mask (group_idx % 8) = state.descriptorDirty mc group_idx)
    (rest : Bytes) :
    unmarshalGroups descriptor_mask groups base
        ((groups.filter (state.descriptorDirty mc)).flatMap (state.marshalGroup mc) ++ rest) =
      .ok (overlay base decoded (state.fieldSent mc) (groups.flatMap schema.fieldsOf),rest) := by
  induction groups generalizing base with
  | nil => rw [List.flatMap_nil,overlay_nil]; rfl
  | cons group_idx groups ih =>
    have head := bits group_idx List.mem_cons_self
    have tail := ih (overlay base decoded (state.fieldSent mc) (schema.fieldsOf group_idx))
      (fun g member => bits g (List.mem_cons_of_mem _ member))
    rw [overlay_append] at tail
    rw [← List.singleton_append,List.filter_append,List.flatMap_append,List.append_assoc]
    exact (Reader.bind_ok (described_reads back head _)).trans tail

theorem descriptor_bits (chunk_idx group_idx : Nat) (member : group_idx ∈ schema.groupsInChunk chunk_idx) :
    hasBit (maskFrom 0 0 ((schema.groupsInChunk chunk_idx).map (state.descriptorDirty mc))) (group_idx % 8) =
      state.descriptorDirty mc group_idx := by
  have place := Schema.mem_groupsInChunk.mp member
  unfold Schema.groupsInChunk at member ⊢
  rw [List.mem_range'_1] at member
  have inside : group_idx % 8 < min 8 (schema.maxDescriptor + 1 - chunk_idx*8) := by omega
  have number : chunk_idx*8 + group_idx % 8 = group_idx := by omega
  rw [flags_read (by simp) (Nat.mod_lt _ (by decide)),List.getD_eq_getElem _ _ (by simpa using inside)]
  simp [number]

theorem chunks_reads (back : ∀ i, state.fieldSent mc i = true → (schema.type i).ReadsAs (state i) (decoded i))
    (chunks : List Nat) (base : ReplicatedState schema) (rest : Bytes) :
    unmarshalChunks chunks base (chunks.flatMap (state.marshalChunk mc) ++ rest) =
      .ok (overlay base decoded (state.fieldSent mc)
        (chunks.flatMap fun chunk_idx => (schema.groupsInChunk chunk_idx).flatMap schema.fieldsOf),rest) := by
  induction chunks generalizing base with
  | nil =>
    have unchanged : overlay base decoded (state.fieldSent mc) [] = base := overlay_nil
    rw [List.flatMap_nil,List.flatMap_nil,unchanged]
    rfl
  | cons chunk_idx chunks ih =>
    have groups := groups_reads back base (descriptor_bits chunk_idx) (chunks.flatMap (state.marshalChunk mc) ++ rest)
    have tail := ih (overlay base decoded (state.fieldSent mc) ((schema.groupsInChunk chunk_idx).flatMap schema.fieldsOf))
    rw [overlay_append] at tail
    rw [List.flatMap_cons,List.flatMap_cons]
    unfold unmarshalChunks
    simp only [marshalChunk,writeU8,List.append_assoc,List.singleton_append]
    exact ((Reader.bind_ok (readU8_cons _ _)).trans (Reader.bind_ok groups)).trans tail

-- The fields that were sent are received, all others are those of the state
-- that was read into.
theorem contents_reads (back : ∀ i, state.fieldSent mc i = true → (schema.type i).ReadsAs (state i) (decoded i))
    (wrote : state.marshalFields mc = some bytes) (base : ReplicatedState schema) (rest : Bytes) :
    base.unmarshalFields (bytes ++ rest) =
      .ok (fun i => if state.fieldSent mc i then decoded i else base i,rest) := by
  unfold marshalFields at wrote
  split at wrote
  · cases wrote
    unfold unmarshalFields
    rw [chunks_reads back]
    congr 2
    funext i
    have member : i ∈ schema.chunks.flatMap fun chunk_idx => (schema.groupsInChunk chunk_idx).flatMap schema.fieldsOf := by
      rw [List.mem_flatMap]
      refine ⟨schema.group i / 8,Schema.mem_chunks i,?_⟩
      rw [List.mem_flatMap]
      exact ⟨schema.group i,Schema.mem_groupsInChunk.mpr ⟨rfl,schema.group_le i⟩,Schema.mem_fieldsOf.mpr rfl⟩
    simp [overlay,member]
  · cases wrote

theorem marshalFields_none : state.marshalFields mc = none ↔ ∀ i, state.fieldSent mc i = false := by
  have quiet : ((List.range (schema.maxDescriptor + 1)).any (state.descriptorDirty mc) = false) ↔
      ∀ i, state.fieldSent mc i = false := by
    rw [List.any_eq_false]
    constructor
    · intro clean i
      have group := clean (schema.group i) (List.mem_range.mpr (Nat.lt_succ_of_le (schema.group_le i)))
      rw [fieldSent,Bool.eq_false_iff.mpr group,Bool.false_and]
    · intro unsent group_idx _ dirty
      have both := dirty
      rw [descriptorDirty,Bool.and_eq_true,List.any_eq_true] at both
      obtain ⟨_,i,member,changed⟩ := both
      have sent := unsent i
      rw [fieldSent,Schema.mem_fieldsOf.mp member,dirty,changed] at sent
      cases sent
  unfold marshalFields
  rw [← quiet]
  cases (List.range (schema.maxDescriptor + 1)).any (state.descriptorDirty mc) with
  | false => simp
  | true => simp

-- Without a filter target and baselines of its own, every dirty field is sent.
theorem fieldSent_plain (state : ReplicatedState schema) (baseline : SequenceNumber) (i : Fin schema.count) :
    state.fieldSent (.plain baseline) i = (schema.type i).isDirty (state i) baseline := by
  have dirty : state.fieldDirty (.plain baseline) i = (schema.type i).isDirty (state i) baseline := rfl
  unfold fieldSent
  rw [dirty]
  cases set : (schema.type i).isDirty (state i) baseline with
  | false => exact Bool.and_false _
  | true =>
    rw [Bool.and_true]
    exact List.any_eq_true.mpr ⟨i,Schema.mem_fieldsOf.mpr rfl,dirty.trans set⟩

end Groups
end NwNetwork.Serialize.ReplicatedState
