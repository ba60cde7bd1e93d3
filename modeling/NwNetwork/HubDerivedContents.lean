import NwNetwork.HubDerivedFragment

namespace NwNetwork.Hub.DerivedFragment
open WireReader Serialize

variable {schema : FragmentSchema} {fragment : DerivedFragment schema} {mc : MarshalContext}

def fieldDirty (fragment : DerivedFragment schema) (mc : MarshalContext) (i : Fin schema.count) : Bool :=
  fragment.fields.fieldDirty (fragment.context mc) i

-- A field is written when its group is, and it is dirty itself.
def fieldSent (fragment : DerivedFragment schema) (mc : MarshalContext) (i : Fin schema.count) : Bool :=
  fragment.fields.fieldSent (fragment.context mc) i

-- A fresh state that has received the fields that were written.
theorem contents_received (observe : ∀ i, Observation (schema.type i))
    (valued : ∀ i, fragment.fieldSent mc i = true → (observe i).HasValue (fragment.fields i))
    (wrote : fragment.marshalContentsWith mc = some bytes) :
    ∃ decoded : FragmentFields schema,
      (∀ rest, (fresh schema).unmarshalContents (bytes ++ rest) = .ok ((⟨.new,decoded⟩,true),rest)) ∧
      ∀ i, if fragment.fieldSent mc i then
          (observe i).content (decoded i) = (observe i).content (fragment.fields i) ∧ (observe i).HasValue (decoded i)
        else decoded i = (schema.type i).initial := by
  have reading : ∀ i, ∃ field : (schema.type i).Handler, fragment.fieldSent mc i = true →
      (schema.type i).ReadsAs (fragment.fields i) field ∧
        (observe i).content field = (observe i).content (fragment.fields i) ∧ (observe i).HasValue field := by
    intro i
    by_cases sent : fragment.fieldSent mc i = true
    · obtain ⟨field,reads⟩ := (observe i).readsBack (fragment.fields i) (valued i sent)
      exact ⟨field,fun _ => reads⟩
    · exact ⟨(schema.type i).initial,fun wrong => absurd wrong sent⟩
  choose field reads using reading
  refine ⟨fun i => if fragment.fieldSent mc i then field i else (schema.type i).initial,?_,?_⟩
  · intro rest
    have back : ∀ i, fragment.fields.fieldSent (fragment.context mc) i = true →
        (schema.toSchema.type i).ReadsAs (fragment.fields i) (field i) := fun i sent => (reads i sent).1
    exact Reader.bind_ok (Serialize.ReplicatedState.contents_reads back wrote
      (Serialize.ReplicatedState.fresh schema.toSchema) rest)
  · intro i
    dsimp only
    by_cases sent : fragment.fieldSent mc i = true
    · rw [if_pos sent,if_pos sent]
      exact (reads i sent).2
    · rw [if_neg sent,if_neg sent]

-- Whatever a state writes of its contents, a fresh one of the same layout reads
-- it and nothing more, and has then the fields that were written.
theorem derived_contents_round_trip (observe : ∀ i, Observation (schema.type i)) (fragment : DerivedFragment schema)
    (mc : MarshalContext)
    (valued : ∀ i, fragment.fieldDirty mc i = true → (observe i).HasValue (fragment.fields i))
    (bytes : Bytes) (wrote : fragment.marshalContentsWith mc = some bytes) :
    ∃ decoded : FragmentFields schema,
      (∀ rest, (fresh schema).unmarshalContents (bytes ++ rest) = .ok ((⟨.new,decoded⟩,true),rest)) ∧
      ∀ i, if fragment.fieldSent mc i then (observe i).content (decoded i) = (observe i).content (fragment.fields i)
        else decoded i = (schema.type i).initial := by
  have sent_valued : ∀ i, fragment.fieldSent mc i = true → (observe i).HasValue (fragment.fields i) :=
    fun i sent => valued i (Bool.and_eq_true_iff.mp sent).2
  obtain ⟨decoded,reads,received⟩ := contents_received observe sent_valued wrote
  refine ⟨decoded,reads,fun i => ?_⟩
  have here := received i
  split
  · rename_i sent
    rw [if_pos sent] at here
    exact here.1
  · rename_i unsent
    rw [if_neg unsent] at here
    exact here

section Layouts

def byteFields (count : Nat) (group : Fin count → Nat) : FragmentSchema := ⟨count,fun _ => (PlainState.byteField none).handlerType,group⟩

def byteValue (value : Option UInt8) (lastModified : SequenceNumber) : ReplicatedFieldHandler UInt8 := ⟨value,lastModified,none,false⟩

-- Nine fields in group 0 and one in group 9, of which the third and the ninth
-- and that of group 9 are modified.
def wideLayout : FragmentSchema := byteFields 10 fun i => if i.val < 9 then 0 else 9

def wideState : DerivedFragment wideLayout := ⟨.new,fun i =>
  if i.val = 2 ∨ 8 ≤ i.val then byteValue (some (UInt8.ofNat i.val)) (.seq 4) else byteValue none .invalid⟩

def wideContext : MarshalContext := ⟨.seq 3,some 7,some [.seq 1]⟩

theorem derived_contents_round_trip_wide :
    ∃ decoded : FragmentFields wideLayout,
      (∀ rest, (fresh wideLayout).unmarshalContents ([1,132,2,2,8,2,1,9] ++ rest) = .ok ((⟨.new,decoded⟩,true),rest)) ∧
      ∀ i, if wideState.fieldSent wideContext i then
          (decoded i : ReplicatedFieldHandler UInt8).value = (wideState.fields i : ReplicatedFieldHandler UInt8).value
        else decoded i = (wideLayout.type i).initial := by
  have valued : ∀ i : Fin wideLayout.count, wideState.fieldDirty wideContext i = true →
      (wideState.fields i : ReplicatedFieldHandler UInt8).value.isSome = true := by decide
  let observe : ∀ i, Observation (wideLayout.type i) := fun _ => (PlainState.byteField none).observation
  exact derived_contents_round_trip observe wideState wideContext valued _ (by decide)

end Layouts
end NwNetwork.Hub.DerivedFragment
