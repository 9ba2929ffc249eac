import CoreCDTL.HeapKit.Fields

/-!
# HeapKit: what `hk_set_field` reports

`hk_set_field` writes the value, and then the switch for the message decides how it goes on: a
field whose type has no text is written and passed over, and the search goes on behind it.

* `setFieldLoop_connected`: what the loop does with a gateway connected.
* `Truthful`: the return value says, with and without a gateway, whether the field exists and was
  written.
* `set_field_truthful_iff`: it does so exactly for a type that is not registered, a field that the
  type does not have, and a name that a field with a text has.
-/

namespace CoreCDTL
namespace HeapKit

/-- A message can show a value of the type. -/
def FieldType.HasText : FieldType → Prop
  | .int | .float | .bool | .char | .string => True
  | .struct | .ptr | .unknown => False

instance : (t : FieldType) → Decidable t.HasText
  | .int | .float | .bool | .char | .string => isTrue trivial
  | .struct | .ptr | .unknown => isFalse id

theorem valueText_isSome (io : FloatText) (h : StrHeap) (m : Mem) (f : FieldInfo) :
    (valueText io h m f).isSome ↔ f.type.HasText := by
  unfold valueText
  cases f.type <;> simp [FieldType.HasText]

/-- The type is registered for the plugin and has the field. -/
def State.HasField (st : State) (pid : Nat) (typeName fieldName : CStr) : Prop :=
  ∃ i reg, findRegistered st pid typeName = .ok (some (i, reg)) ∧
    (reg.typeInfo.field fieldName).isSome

/-- The field holds the bytes at `value`. -/
def State.Holds (st : State) (pid : Nat) (typeName fieldName : CStr) (value : Mem) : Prop :=
  ∃ i reg f, findRegistered st pid typeName = .ok (some (i, reg)) ∧
    reg.typeInfo.field fieldName = some f ∧
    reg.dInstance.read f.offset f.size = value.read 0 f.size

/-- `hk_set_field` returns the same with and without a gateway: 0 exactly when the field exists,
and then it holds the value; otherwise every instance is as it was. -/
def Truthful (io : FloatText) (st : State) (pid : Nat) (typeName fieldName : CStr)
    (value : Mem) : Prop :=
  ∃ ret, ∀ connected, ∃ st' sent,
    hkSetField io connected st pid typeName fieldName value = .ok (ret, st', sent) ∧
      (ret = 0 ↔ st.HasField pid typeName fieldName) ∧
      (ret = 0 → st'.Holds pid typeName fieldName value) ∧
      (ret ≠ 0 → st'.registry = st.registry)

/-- A field with that name whose value a message can show. -/
def TypeInfo.HasTextField (ti : TypeInfo) (fieldName : CStr) : Prop :=
  ∃ f ∈ ti.fields, f.name = fieldName ∧ f.type.HasText

section Loop

variable (io : FloatText) (h : StrHeap) (pid : Nat) (typeName fieldName : CStr) (value : Mem)

/-- With a gateway the loop returns 0 if a field with the name has a text, else -2. -/
theorem setFieldLoop_ret (fs : List FieldInfo) (m : Mem) :
    (setFieldLoop io true h pid typeName fieldName value fs m).1 =
      if ∃ f ∈ fs, f.name = fieldName ∧ f.type.HasText then 0 else -2 := by
  induction fs generalizing m with
  | nil => rfl
  | cons f fs ih =>
    have hcons : (∃ g ∈ f :: fs, g.name = fieldName ∧ g.type.HasText) ↔
        (f.name = fieldName ∧ f.type.HasText) ∨ ∃ g ∈ fs, g.name = fieldName ∧ g.type.HasText :=
      by simp
    unfold setFieldLoop
    by_cases hf : f.name = fieldName
    · simp only [if_pos hf, ↓reduceIte]
      have htext := valueText_isSome io h value { f with offset := 0 }
      cases hv : valueText io h value { f with offset := 0 } with
      | none =>
        have hn : ¬ f.type.HasText := by
          rw [← htext, hv]
          exact Bool.false_ne_true
        simp only [ih, hcons, hn, and_false, false_or]
      | some v =>
        have ht : f.type.HasText := htext.mp (by rw [hv]; rfl)
        rw [if_pos (hcons.mpr (.inl ⟨hf, ht⟩))]
    · rw [if_neg hf, ih]
      simp only [hcons, hf, false_and, false_or]

/-- The loop leaves bytes alone that no field with the name occupies. -/
theorem setFieldLoop_frame (connected : Bool) {g : FieldInfo} (fs : List FieldInfo) (m : Mem)
    (hg : ∀ f ∈ fs, f.name = fieldName → Apart g f) :
    (setFieldLoop io connected h pid typeName fieldName value fs m).2.1.read g.offset g.size =
      m.read g.offset g.size := by
  induction fs generalizing m with
  | nil => rfl
  | cons f fs ih =>
    have hrest := fun m => ih m fun f' hf' => hg f' (List.mem_cons_of_mem f hf')
    unfold setFieldLoop
    by_cases hf : f.name = fieldName
    · have hlen : (value.read 0 f.size).length = f.size := by simp [Mem.read]
      have hwrite : (m.write f.offset (value.read 0 f.size)).read g.offset g.size =
          m.read g.offset g.size :=
        Mem.read_write_disjoint (by rw [hlen]; exact hg f List.mem_cons_self hf)
      simp only [if_pos hf]
      split
      · split
        · rw [hrest, hwrite]
        · exact hwrite
      · exact hwrite
    · simp only [if_neg hf, hrest]

/-- Where no field has the name, nothing is written. -/
theorem setFieldLoop_none (connected : Bool) (fs : List FieldInfo) (m : Mem)
    (hn : ∀ f ∈ fs, f.name ≠ fieldName) :
    setFieldLoop io connected h pid typeName fieldName value fs m = (-2, m, []) := by
  induction fs generalizing m with
  | nil => rfl
  | cons f fs ih =>
    unfold setFieldLoop
    rw [if_neg (hn f List.mem_cons_self)]
    exact ih m fun g hg => hn g (List.mem_cons_of_mem f hg)

/-- The first field with the name holds the value afterwards, also where later fields with the
name were written. -/
theorem setFieldLoop_holds (connected : Bool) {fs : List FieldInfo} {g : FieldInfo} (m : Mem)
    (hg : (fs.find? fun f => f.name = fieldName) = some g) (hap : fs.Pairwise Apart) :
    (setFieldLoop io connected h pid typeName fieldName value fs m).2.1.read g.offset g.size =
      value.read 0 g.size := by
  induction fs generalizing m with
  | nil => cases hg
  | cons f fs ih =>
    obtain ⟨hf, hap⟩ := List.pairwise_cons.mp hap
    unfold setFieldLoop
    by_cases hname : f.name = fieldName
    · obtain rfl : f = g := by
        rw [List.find?_cons_of_pos (by simpa using hname)] at hg
        exact Option.some.inj hg
      have hself := Mem.read_write_self m f.offset (value.read 0 f.size)
      have hlen : (value.read 0 f.size).length = f.size := by simp [Mem.read]
      rw [hlen] at hself
      simp only [if_pos hname]
      split
      · split
        · rw [setFieldLoop_frame io h pid typeName fieldName value connected fs _
            fun f' hf' _ => hf f' hf', hself]
        · exact hself
      · exact hself
    · rw [List.find?_cons_of_neg (by simpa using hname)] at hg
      simp only [if_neg hname]
      exact ih m hg hap

end Loop

/-- A store into the field of a registered type: what it returns and what the field holds. -/
theorem hkSetField_found (io : FloatText) {st : State} {pid i : Nat} {typeName fieldName : CStr}
    (value : Mem) {reg : RegisteredType} {f : FieldInfo}
    (hfind : findRegistered st pid typeName = .ok (some (i, reg)))
    (hf : reg.typeInfo.field fieldName = some f) (hap : reg.typeInfo.fields.Pairwise Apart)
    (htext : reg.typeInfo.HasTextField fieldName) (connected : Bool) :
    ∃ st' sent, hkSetField io connected st pid typeName fieldName value = .ok (0, st', sent) ∧
      st'.Holds pid typeName fieldName value := by
  have hret : (setFieldLoop io connected st.strs pid typeName fieldName value reg.typeInfo.fields
      reg.dInstance).1 = 0 := by
    cases connected with
    | true =>
      rw [setFieldLoop_ret]
      exact if_pos htext
    | false =>
      rw [TypeInfo.field] at hf
      rw [setFieldLoop_disconnected, hf]
  have hholds := setFieldLoop_holds io st.strs pid typeName fieldName value connected
    reg.dInstance hf hap
  rcases hloop : setFieldLoop io connected st.strs pid typeName fieldName value
    reg.typeInfo.fields reg.dInstance with ⟨ret, m, sent⟩
  rw [hloop] at hret hholds
  obtain rfl : ret = 0 := hret
  refine ⟨{ st with registry := st.registry.set i (some { reg with dInstance := m }) }, sent, ?_,
    i, { reg with dInstance := m }, f, findSlot_set hfind rfl rfl, hf, hholds⟩
  unfold hkSetField
  rw [hfind]
  simp only [hloop]

/-- A store into a field that the type does not have. -/
theorem hkSetField_noField (io : FloatText) {st : State} {pid i : Nat} {typeName fieldName : CStr}
    (value : Mem) {reg : RegisteredType}
    (hfind : findRegistered st pid typeName = .ok (some (i, reg)))
    (hf : reg.typeInfo.field fieldName = none) (connected : Bool) :
    hkSetField io connected st pid typeName fieldName value = .ok (-2, st, []) := by
  have hnone : ∀ f ∈ reg.typeInfo.fields, f.name ≠ fieldName := fun f hm => by
    simpa using List.find?_eq_none.mp hf f hm
  have hsame : st.registry.set i (some reg) = st.registry := by
    obtain ⟨hi, he⟩ := List.getElem?_eq_some_iff.mp (findSlot_some hfind).1
    rw [← he, List.set_getElem_self]
  unfold hkSetField
  rw [hfind]
  simp only [setFieldLoop_none io st.strs pid typeName fieldName value connected _ _ hnone, hsame]

/-- **When `hk_set_field` tells the truth.** In a registry whose types have no overlapping fields,
for every plugin, type name, field name and value: `hk_set_field` is atomic and reports the same
with and without a gateway if and only if the search for the type does not fault and, where the
type is registered and has the field, a field with that name has a text. -/
theorem set_field_truthful_iff (io : FloatText) {st : State} (pid : Nat)
    (typeName fieldName : CStr) (value : Mem)
    (hap : ∀ reg, some reg ∈ st.registry → reg.typeInfo.fields.Pairwise Apart) :
    Truthful io st pid typeName fieldName value ↔
      ∃ found, findRegistered st pid typeName = .ok found ∧
        ∀ i reg, found = some (i, reg) → (reg.typeInfo.field fieldName).isSome →
          reg.typeInfo.HasTextField fieldName := by
  have has : ∀ {i reg}, findRegistered st pid typeName = .ok (some (i, reg)) →
      (st.HasField pid typeName fieldName ↔ (reg.typeInfo.field fieldName).isSome) := by
    intro i reg hfind
    constructor
    · rintro ⟨j, reg', h, hs⟩
      rw [hfind] at h
      cases h
      exact hs
    · exact fun hs => ⟨i, reg, hfind, hs⟩
  constructor
  · rintro ⟨ret, h⟩
    obtain ⟨st', sent, hset, h0, -⟩ := h true
    unfold hkSetField at hset
    cases hfind : findRegistered st pid typeName with
    | error e => rw [hfind] at hset; cases hset
    | ok found =>
      refine ⟨found, rfl, ?_⟩
      rintro i reg rfl hs
      have hz := h0.mpr ((has hfind).mpr hs)
      rw [hfind] at hset
      simp only [Except.ok.injEq, Prod.mk.injEq] at hset
      rw [← hset.1, setFieldLoop_ret] at hz
      by_contra hn
      rw [if_neg (show ¬ ∃ f ∈ _, _ from hn)] at hz
      cases hz
  · rintro ⟨found, hfind, htext⟩
    cases found with
    | none =>
      have hno : ¬ st.HasField pid typeName fieldName := by
        rintro ⟨i, reg, h, -⟩
        rw [hfind] at h
        cases h
      refine ⟨-1, fun connected => ⟨st, [], ?_, iff_of_false (by decide) hno, ?_, fun _ => rfl⟩⟩
      · unfold hkSetField
        rw [hfind]
      · exact fun h => absurd h (by decide)
    | some p =>
      obtain ⟨i, reg⟩ := p
      cases hf : reg.typeInfo.field fieldName with
      | none =>
        have hno : ¬ st.HasField pid typeName fieldName := by
          rw [has hfind, hf]
          exact Bool.false_ne_true
        exact ⟨-2, fun connected => ⟨st, [], hkSetField_noField io value hfind hf connected,
          iff_of_false (by decide) hno, fun h => absurd h (by decide), fun _ => rfl⟩⟩
      | some f =>
        have hs : (reg.typeInfo.field fieldName).isSome := by rw [hf]; rfl
        have hmem := List.mem_of_getElem? (findSlot_some hfind).1
        refine ⟨0, fun connected => ?_⟩
        obtain ⟨st', sent, hset, hholds⟩ := hkSetField_found io value hfind hf (hap reg hmem)
          (htext i reg rfl hs) connected
        exact ⟨st', sent, hset, iff_of_true rfl ((has hfind).mpr hs), fun _ => hholds,
          fun h => absurd rfl h⟩

/-- A type with an int and a pointer. -/
def linkType : TypeInfo where
  name := "link".toList
  size := 12
  fields := [⟨"id".toList, .int, 0, 4, none⟩, ⟨"next".toList, .ptr, 4, 8, none⟩]

/-- The registry with one instance of it. -/
def linkState : State := ⟨[some ⟨1, linkType, fun _ => 0⟩], StrHeap.empty⟩

/-- `linkType` has no float. -/
def linkFloat : FloatText := ⟨fun _ => "0.000".toList, fun _ => 0⟩

/-- A store into the int is truthful. -/
theorem set_field_truthful_iff_id :
    Truthful linkFloat linkState 1 "link".toList "id".toList (fun _ => 7) := by
  refine (@set_field_truthful_iff linkFloat linkState 1 _ _ (fun _ => 7) ?_).mpr
    ⟨_, rfl, fun i reg h _ => ?_⟩
  · intro reg hreg
    cases List.mem_singleton.mp hreg
    exact (show linkType.fields.Pairwise fun f g => f.offset + f.size ≤ g.offset by
      decide).imp fun h => .inl h
  · cases h
    exact ⟨_, List.mem_cons_self, rfl, trivial⟩

/-- **A store that reports a missing field.** With a gateway connected, `hk_set_field` writes the
pointer and returns -2. -/
theorem set_field_reports_missing :
    ∃ st' reg', hkSetField linkFloat true linkState 1 "link".toList "next".toList (fun _ => 7) =
        .ok (-2, st', []) ∧
      linkState.HasField 1 "link".toList "next".toList ∧
      findRegistered st' 1 "link".toList = .ok (some (0, reg')) ∧
      reg'.dInstance.read 4 8 = List.replicate 8 7 ∧
      ¬ Truthful linkFloat linkState 1 "link".toList "next".toList (fun _ => 7) := by
  refine ⟨_, _, rfl, ⟨0, _, rfl, rfl⟩, rfl, by decide, ?_⟩
  rintro ⟨ret, h⟩
  obtain ⟨st', sent, hset, h0, -⟩ := h true
  cases hset
  exact absurd (h0.mpr ⟨0, _, rfl, rfl⟩) (by decide)

end HeapKit
end CoreCDTL
