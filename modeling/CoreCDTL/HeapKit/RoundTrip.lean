import CoreCDTL.HeapKit.Codec
import Mathlib.Data.List.Pairwise

/-!
# HeapKit: a complete text is decoded field by field

A record is complete (`CompleteRecord`) if `snprintf` kept all of it and its value has no `;` and
no NUL. When every record is complete, the text of `hk_serialize` is a list of assignments, and
`hk_deserialize` performs exactly these:

1. the text is the assignments one after the other (`records_complete`);
2. its `;`-tokens are the records without their `;` (`tokens_records`);
3. each token stores its value in the field it names (`applyToken_record`);
4. the stores do not disturb each other (`readField_storeAll`).

`readField_hkDeserialize` puts these together: every rendered field ends with the value decoded
from its own text, whatever the instance held before. The round trip of a whole instance
(`hkDeserialize_hkSerialize`) follows with `decodeValue_encodeValue`.
-/

namespace CoreCDTL
namespace HeapKit

/-- A type whose text can be taken apart again: the names are C strings, distinct and free
of `=` and `;`, and the fields occupy disjoint ranges. -/
structure Codable (fields : List FieldInfo) : Prop where
  distinct : (fields.map FieldInfo.name).Nodup
  noNul : ∀ f ∈ fields, nul ∉ f.name
  noEq : ∀ f ∈ fields, '=' ∉ f.name
  noSemi : ∀ f ∈ fields, ';' ∉ f.name
  apart : fields.Pairwise FieldInfo.Apart

variable (io : FloatText)

/-- The record of a field is all there: no `;` or NUL in the value, and room in `temp[256]`. -/
def CompleteRecord (h : StrHeap) (m : Mem) (f : FieldInfo) : Prop :=
  ∀ v, valueText io h m f = some v → nul ∉ v ∧ ';' ∉ v ∧ (recordText f.name v).length ≤ 255

/-- The fields that have a record, with the texts of their values. -/
def assignments (h : StrHeap) (m : Mem) (fields : List FieldInfo) : List (FieldInfo × CStr) :=
  fields.filterMap fun f => (valueText io h m f).map fun v => (f, v)

/-- The stores of a list of assignments. -/
def storeAll (l : List (FieldInfo × CStr)) (s : Mem × StrHeap) : Mem × StrHeap :=
  l.foldl (fun s p => storeField io p.1 p.2 s) s

variable {io}

theorem mem_assignments {h : StrHeap} {m : Mem} {fields : List FieldInfo} {f : FieldInfo}
    {v : CStr} : (f, v) ∈ assignments io h m fields ↔ f ∈ fields ∧ valueText io h m f = some v := by
  unfold assignments
  simp only [List.mem_filterMap, Option.map_eq_some_iff, Prod.mk.injEq]
  constructor
  · rintro ⟨g, hg, w, hw, rfl, rfl⟩
    exact ⟨hg, hw⟩
  · rintro ⟨hf, hv⟩
    exact ⟨f, hf, v, hv, rfl, rfl⟩

theorem assignments_cons_some {h : StrHeap} {m : Mem} {f : FieldInfo} {fs : List FieldInfo}
    {v : CStr} (hv : valueText io h m f = some v) :
    assignments io h m (f :: fs) = (f, v) :: assignments io h m fs := by
  simp [assignments, hv]

theorem assignments_cons_none {h : StrHeap} {m : Mem} {f : FieldInfo} {fs : List FieldInfo}
    (hv : valueText io h m f = none) : assignments io h m (f :: fs) = assignments io h m fs := by
  simp [assignments, hv]

/-- The fields of the assignments are pairwise apart. -/
theorem assignments_apart {h : StrHeap} {m : Mem} {fields : List FieldInfo}
    (hc : fields.Pairwise FieldInfo.Apart) :
    (assignments io h m fields).Pairwise fun p q => p.1.Apart q.1 := by
  unfold assignments
  apply List.Pairwise.filterMap _ _ hc
  intro f g hfg p hp q hq
  obtain ⟨v, -, rfl⟩ := Option.map_eq_some_iff.mp hp
  obtain ⟨w, -, rfl⟩ := Option.map_eq_some_iff.mp hq
  exact hfg

theorem assignments_length_le {h : StrHeap} {m : Mem} {fields : List FieldInfo} :
    (assignments io h m fields).length ≤ fields.length := List.length_filterMap_le _ _

/-! ## The text -/

/-- The buffer holds the whole record. -/
theorem record_complete {h : StrHeap} {m : Mem} {f : FieldInfo} {v : CStr} (hn : nul ∉ f.name)
    (hr : CompleteRecord io h m f) (hv : valueText io h m f = some v) :
    record io h m f = some (recordText f.name v) := by
  obtain ⟨h₁, -, h₃⟩ := hr v hv
  unfold record
  rw [hv, Option.map_some, snprintf_eq_self _ (by omega)]
  simp only [recordText, List.mem_append, List.mem_cons, List.not_mem_nil, or_false, not_or]
  exact ⟨hn, by decide, h₁, by decide⟩

/-- **Step 1.** Complete records are the assignments in field order. -/
theorem records_complete {h : StrHeap} {m : Mem} {fs : List FieldInfo}
    (hc : ∀ f ∈ fs, nul ∉ f.name) (hr : ∀ f ∈ fs, CompleteRecord io h m f) :
    records io h m fs = (assignments io h m fs).flatMap fun p => recordText p.1.name p.2 := by
  induction fs with
  | nil => rfl
  | cons f fs ih =>
    have ih' := ih (fun g hg => hc g (List.mem_cons_of_mem _ hg))
      (fun g hg => hr g (List.mem_cons_of_mem _ hg))
    cases hv : valueText io h m f with
    | none =>
      have hrec : record io h m f = none := by simp [record, hv]
      rw [records_cons_none io hrec, assignments_cons_none hv, ih']
    | some v =>
      have hrec := record_complete (hc f (by simp)) (hr f (by simp)) hv
      rw [records_cons_some io hrec, assignments_cons_some hv, ih', List.flatMap_cons]

/-- **Step 2.** The tokens of the records. -/
theorem tokens_records {l : List (FieldInfo × CStr)}
    (hl : ∀ p ∈ l, ';' ∉ p.1.name ∧ ';' ∉ p.2) :
    tokens (· = ';') (l.flatMap fun p => recordText p.1.name p.2) =
      l.map fun p => p.1.name ++ '=' :: p.2 := by
  induction l with
  | nil => rfl
  | cons p l ih =>
    obtain ⟨hn, hv⟩ := hl p (by simp)
    have htext : ((p :: l).flatMap fun p => recordText p.1.name p.2) =
        (p.1.name ++ '=' :: p.2) ++ ';' :: l.flatMap fun p => recordText p.1.name p.2 := by
      simp [recordText]
    rw [htext, tokens_append (by simp) _ (by decide), List.map_cons,
      ih fun q hq => hl q (List.mem_cons_of_mem _ hq)]
    intro c hc
    simp only [List.mem_append, List.mem_cons] at hc
    rcases hc with hc | rfl | hc
    · simpa using fun e : c = ';' => hn (e ▸ hc)
    · decide
    · simpa using fun e : c = ';' => hv (e ▸ hc)

theorem find_name {fields : List FieldInfo} (hd : (fields.map FieldInfo.name).Nodup)
    {f : FieldInfo} (hf : f ∈ fields) : (fields.find? fun g => g.name = f.name) = some f := by
  induction fields with
  | nil => cases hf
  | cons g fs ih =>
    obtain ⟨hg, hd'⟩ := List.nodup_cons.mp hd
    rcases List.mem_cons.mp hf with rfl | hf
    · simp
    · have hne : g.name ≠ f.name := fun e => hg (e ▸ List.mem_map_of_mem hf)
      rw [List.find?_cons_of_neg (by simpa using hne)]
      exact ih hd' hf

/-- **Step 3.** The token of a record stores its value in the field it names. -/
theorem applyToken_record {fields : List FieldInfo} (hc : Codable fields) {f : FieldInfo}
    (hf : f ∈ fields) (v : CStr) (s : Mem × StrHeap) :
    applyToken io fields s (f.name ++ '=' :: v) = storeField io f v s := by
  unfold applyToken
  rw [strchr_append (hc.noEq f hf)]
  simp only [find_name hc.distinct hf]

theorem foldl_applyToken {fields : List FieldInfo} (hc : Codable fields)
    {l : List (FieldInfo × CStr)} (hl : ∀ p ∈ l, p.1 ∈ fields) (s : Mem × StrHeap) :
    (l.map fun p => p.1.name ++ '=' :: p.2).foldl (applyToken io fields) s = storeAll io l s := by
  induction l generalizing s with
  | nil => rfl
  | cons p l ih =>
    rw [List.map_cons, List.foldl_cons, applyToken_record hc (hl p (by simp)),
      ih fun q hq => hl q (List.mem_cons_of_mem _ hq)]
    rfl

/-! ## The stores -/

@[simp] theorem storeAll_cons (p : FieldInfo × CStr) (l : List (FieldInfo × CStr))
    (s : Mem × StrHeap) : storeAll io (p :: l) s = storeAll io l (storeField io p.1 p.2 s) := rfl

/-- The stores change only bytes of their fields, and only add strings. -/
theorem storeAll_frame {l : List (FieldInfo × CStr)} {s : Mem × StrHeap} :
    (∀ i, (∀ p ∈ l, ¬ p.1.Occupies i) → (storeAll io l s).1 i = s.1 i) ∧
      s.2.brk ≤ (storeAll io l s).2.brk ∧
      ∀ a, a < s.2.brk → (storeAll io l s).2.text a = s.2.text a := by
  induction l generalizing s with
  | nil => exact ⟨fun _ _ => rfl, Nat.le_refl _, fun _ _ => rfl⟩
  | cons p l ih =>
    obtain ⟨h₁, h₂, -, h₃⟩ := @storeField_frame io p.1 p.2 s
    obtain ⟨k₁, k₂, k₃⟩ := @ih (storeField io p.1 p.2 s)
    rw [storeAll_cons]
    refine ⟨fun i hi => ?_, Nat.le_trans h₂ k₂, fun a ha => ?_⟩
    · exact (k₁ i fun q hq => hi q (List.mem_cons_of_mem _ hq)).trans (h₁ i (hi p (by simp)))
    · exact (k₃ a (Nat.lt_of_lt_of_le ha h₂)).trans (h₃ a ha)

/-- The bytes of a field that the stores do not overlap. -/
theorem storeAll_apart {l : List (FieldInfo × CStr)} {s : Mem × StrHeap} {g : FieldInfo}
    (h : ∀ p ∈ l, p.1.Apart g) {n : Nat} (hn : n ≤ g.span) :
    (storeAll io l s).1.read g.offset n = s.1.read g.offset n := by
  apply Mem.read_congr
  intro i h₁ h₂
  exact storeAll_frame.1 i fun p hp hocc => h p hp i hocc ⟨h₁, by omega⟩

/-- **Step 4.** After the stores every assigned field reads as the value of its own text. -/
theorem readField_storeAll {l : List (FieldInfo × CStr)} {s : Mem × StrHeap}
    (ha : l.Pairwise fun p q => p.1.Apart q.1) (hn : ∀ p ∈ l, nul ∉ p.2)
    (hroom : s.2.brk + l.length ≤ 2 ^ 64) {p : FieldInfo × CStr} (hp : p ∈ l) :
    readField (storeAll io l s).2 (storeAll io l s).1 p.1 = decodeValue io p.1.type p.2 := by
  induction l generalizing s with
  | nil => cases hp
  | cons q l ih =>
    obtain ⟨haq, ha'⟩ := List.pairwise_cons.mp ha
    have hlen : (q :: l).length = l.length + 1 := rfl
    have hbrk := (@storeField_frame io q.1 q.2 s).2.2.1
    have htail := fun r (hr : r ∈ l) => hn r (List.mem_cons_of_mem _ hr)
    rcases List.mem_cons.mp hp with rfl | hp
    · -- The first store gives the value; the later ones do not touch the field or its string.
      obtain ⟨h₁, h₂⟩ := @readField_storeField io p.1 p.2 s (hn p (by simp)) (by omega)
      obtain ⟨-, -, h₃⟩ := @storeAll_frame io l (storeField io p.1 p.2 s)
      rw [storeAll_cons, ← h₁]
      apply readField_congr
      · exact fun n hn => storeAll_apart (fun r hr => (haq r hr).symm) hn
      · exact fun ht => h₃ _ (h₂ ht)
    · rw [storeAll_cons]
      exact ih ha' htail (by omega) hp

/-! ## The whole text -/

/-- **A complete text is decoded field by field.** `hk_deserialize` of a text that `hk_serialize`
made of complete records returns 0; every rendered field of the target ends with the value of
its own text, and the bytes of every other field stay. -/
theorem readField_hkDeserialize {st st' : State} {pid size i i' : Nat} {name text : CStr}
    {reg reg' : RegisteredType} (hfind : findRegistered st pid name = .ok (some (i, reg)))
    (hser : hkSerialize io st pid name (some size) = .ok (0, text))
    (hc : Codable reg.typeInfo.fields)
    (hr : ∀ f ∈ reg.typeInfo.fields, CompleteRecord io st.strs reg.dInstance f)
    (htext : text.length < 1024)
    (hfind' : findRegistered st' pid name = .ok (some (i', reg')))
    (hty : reg'.typeInfo = reg.typeInfo)
    (hroom : st'.strs.brk + reg.typeInfo.fields.length ≤ 2 ^ 64) :
    ∃ st'' reg'', hkDeserialize io st' pid name (some text) = .ok (0, st'') ∧
      findRegistered st'' pid name = .ok (some (i', reg'')) ∧ reg''.typeInfo = reg.typeInfo ∧
      (∀ f ∈ reg.typeInfo.fields, ∀ v, valueText io st.strs reg.dInstance f = some v →
        readField st''.strs reg''.dInstance f = decodeValue io f.type v) ∧
      ∀ f ∈ reg.typeInfo.fields, valueText io st.strs reg.dInstance f = none →
        reg''.dInstance.read f.offset f.span = reg'.dInstance.read f.offset f.span := by
  set L := assignments io st.strs reg.dInstance reg.typeInfo.fields with hL
  have hmem : ∀ p ∈ L, p.1 ∈ reg.typeInfo.fields ∧
      valueText io st.strs reg.dInstance p.1 = some p.2 := fun p hp => mem_assignments.mp hp
  have hclean : ∀ p ∈ L, nul ∉ p.2 ∧ ';' ∉ p.2 := fun p hp =>
    let ⟨hf, hv⟩ := hmem p hp
    ⟨(hr p.1 hf p.2 hv).1, (hr p.1 hf p.2 hv).2.1⟩
  -- The text is the records of `L`, and the copy in `buf[1024]` is all of it.
  have htx : text = L.flatMap fun p => recordText p.1.name p.2 := by
    rw [hkSerialize_records io hfind hser]
    exact records_complete hc.noNul hr
  have hbuf : strncpy 1024 text = text := List.take_of_length_le (by omega)
  have htok : tokens (· = ';') (strncpy 1024 text) = L.map fun p => p.1.name ++ '=' :: p.2 := by
    rw [hbuf, htx]
    exact tokens_records fun p hp => ⟨hc.noSemi _ (hmem p hp).1, (hclean p hp).2⟩
  have hfold : (tokens (· = ';') (strncpy 1024 text)).foldl (applyToken io reg'.typeInfo.fields)
      (reg'.dInstance, st'.strs) = storeAll io L (reg'.dInstance, st'.strs) := by
    rw [htok, hty]
    exact foldl_applyToken hc (fun p hp => (hmem p hp).1) _
  have hapart : L.Pairwise fun p q => p.1.Apart q.1 := assignments_apart hc.apart
  have hlen : L.length ≤ reg.typeInfo.fields.length := assignments_length_le
  set s := storeAll io L (reg'.dInstance, st'.strs) with hs
  set reg'' : RegisteredType := { reg' with dInstance := s.1 } with hreg''
  refine ⟨⟨st'.registry.set i' (some reg''), s.2⟩, reg'', ?_, findSlot_set hfind' rfl rfl, hty,
    fun f hf v hv => ?_, fun f hf hv => ?_⟩
  · unfold hkDeserialize
    rw [hfind']
    simp only [hfold, ← hreg'']
  · have hp : (f, v) ∈ L := mem_assignments.mpr ⟨hf, hv⟩
    exact readField_storeAll hapart (fun p hp => (hclean p hp).1) (by simp only; omega) hp
  · apply storeAll_apart _ (Nat.le_refl _)
    intro p hp
    obtain ⟨hpf, hpv⟩ := hmem p hp
    have hne : p.1 ≠ f := by
      rintro rfl
      rw [hpv] at hv; cases hv
    exact hc.apart.forall hpf hf hne

/-! ## The round trip of an instance -/

/-- A char or a string that its record can carry: no NUL or `;` char, no string with a `;`. -/
def Carried (h : StrHeap) (m : Mem) (f : FieldInfo) : Prop :=
  (f.type = .char → Char.ofNat (m f.offset).toNat ≠ nul ∧ Char.ofNat (m f.offset).toNat ≠ ';') ∧
    (f.type = .string → ';' ∉ h.text (m.readPtr f.offset))

/-- A character that no format writes on its own is in a value's text only if the field's char or
string has it. -/
theorem not_mem_valueText {h : StrHeap} {m : Mem} {f : FieldInfo} {v : CStr} {c : Char}
    (h₁ : c ∉ "-truefalse\"".toList) (h₂ : c.isDigit = false) (hf : f.type ≠ .float)
    (hchar : f.type = .char → Char.ofNat (m f.offset).toNat ≠ c)
    (hstr : f.type = .string → c ∉ h.text (m.readPtr f.offset))
    (hv : valueText io h m f = some v) : c ∉ v := by
  have hsub : ∀ w : List Char, (∀ x ∈ w, x ∈ "-truefalse\"".toList) → c ∉ w :=
    fun w hw hc => h₁ (hw c hc)
  unfold valueText at hv
  cases ht : f.type with
  | int =>
    rw [ht] at hv
    rw [← Option.some.inj hv]
    exact not_mem_fmtD (fun e => h₁ (by rw [e]; decide)) h₂ _
  | float => exact absurd ht hf
  | bool =>
    rw [ht] at hv
    rw [← Option.some.inj hv]
    split <;> exact hsub _ (by simp)
  | char =>
    rw [ht] at hv
    rw [← Option.some.inj hv, List.mem_singleton]
    exact fun e => hchar ht e.symm
  | string =>
    rw [ht] at hv
    rw [← Option.some.inj hv, List.cons_append, List.mem_cons, List.mem_append]
    have hq : c ≠ '"' := fun e => h₁ (by rw [e]; decide)
    rintro (hc | hc | hc)
    · exact hq hc
    · exact hstr ht hc
    · exact hq (List.mem_singleton.mp hc)
  | struct | ptr | unknown =>
    rw [ht] at hv
    cases hv

/-- The record of a carried value that fits in `temp` is complete. -/
theorem Carried.completeRecord {h : StrHeap} {m : Mem} {f : FieldInfo} (hf : f.type ≠ .float)
    (hc : Carried h m f)
    (hl : ∀ v, valueText io h m f = some v → (recordText f.name v).length ≤ 255) :
    CompleteRecord io h m f := by
  intro v hv
  refine ⟨?_, ?_, hl v hv⟩
  · exact not_mem_valueText (by decide) (by decide) hf (fun ht => (hc.1 ht).1)
      (fun _ => h.text_nul _) hv
  · exact not_mem_valueText (by decide) (by decide) hf (fun ht => (hc.1 ht).2) hc.2 hv

/-- **Round trip.** The text of an instance without float fields, whose chars and strings its
records can carry, restores every int, bool, char and string field of the type's instance in any
later state, and leaves its struct and ptr fields as they are there. `strdup` has an address left
for each field. -/
theorem hkDeserialize_hkSerialize {st st' : State} {pid size i i' : Nat} {name text : CStr}
    {reg reg' : RegisteredType} (hfind : findRegistered st pid name = .ok (some (i, reg)))
    (hc : Codable reg.typeInfo.fields) (hfloat : ∀ f ∈ reg.typeInfo.fields, f.type ≠ .float)
    (hcar : ∀ f ∈ reg.typeInfo.fields, Carried st.strs reg.dInstance f)
    (hrec : ∀ f ∈ reg.typeInfo.fields, ∀ v, valueText io st.strs reg.dInstance f = some v →
      (recordText f.name v).length ≤ 255)
    (hser : hkSerialize io st pid name (some size) = .ok (0, text))
    (htext : text.length < 1024)
    (hfind' : findRegistered st' pid name = .ok (some (i', reg')))
    (hty : reg'.typeInfo = reg.typeInfo)
    (hroom : st'.strs.brk + reg.typeInfo.fields.length ≤ 2 ^ 64) :
    ∃ st'' reg'', hkDeserialize io st' pid name (some text) = .ok (0, st'') ∧
      findRegistered st'' pid name = .ok (some (i', reg'')) ∧ reg''.typeInfo = reg.typeInfo ∧
      (∀ f ∈ reg.typeInfo.fields, f.type ∈ [.int, .bool, .char, .string] →
        readField st''.strs reg''.dInstance f = readField st.strs reg.dInstance f) ∧
      ∀ f ∈ reg.typeInfo.fields, f.type ∈ [.struct, .ptr] →
        reg''.dInstance.read f.offset f.span = reg'.dInstance.read f.offset f.span := by
  obtain ⟨st'', reg'', h₁, h₂, h₃, h₄, h₅⟩ := readField_hkDeserialize hfind hser hc
    (fun f hf => (hcar f hf).completeRecord (hfloat f hf) (hrec f hf)) htext hfind' hty hroom
  refine ⟨st'', reg'', h₁, h₂, h₃, fun f hf ht => ?_, fun f hf ht => h₅ f hf ?_⟩
  · obtain ⟨v, hv⟩ : ∃ v, readField st.strs reg.dInstance f = some v := by
      unfold readField
      cases hft : f.type <;> simp_all
    have hvt : valueText io st.strs reg.dInstance f = some (encodeValue io v) := by
      rw [valueText_eq, hv]; rfl
    rw [h₄ f hf _ hvt, decodeValue_encodeValue io hv (hfloat f hf), hv]
  · unfold valueText
    cases hft : f.type <;> simp_all

/-- A type with a field of each kind but float. -/
def sampleType : TypeInfo where
  name := "sample".toList
  size := 24
  fields := [⟨"id".toList, .int, 0, 4, none⟩, ⟨"on".toList, .bool, 4, 1, none⟩,
    ⟨"tag".toList, .char, 5, 1, none⟩, ⟨"label".toList, .string, 8, 8, none⟩,
    ⟨"owner".toList, .ptr, 16, 8, none⟩]

/-- The registry with one instance of `sampleType`. -/
def sampleState (m : Mem) : State := ⟨[some ⟨1, sampleType, m⟩], StrHeap.empty⟩

/-- No float field is rendered or read in `sampleType`. -/
def sampleFloat : FloatText := ⟨fun _ => "0.000".toList, fun _ => 0⟩

theorem sampleType_codable : Codable sampleType.fields where
  distinct := by decide
  noNul := by decide
  noEq := by decide
  noSemi := by decide
  apart := by
    have far : ∀ f g : FieldInfo, f.offset + f.span ≤ g.offset → f.Apart g :=
      fun f g h i hf hg => by unfold FieldInfo.Occupies at hf hg; omega
    exact (show sampleType.fields.Pairwise fun f g => f.offset + f.span ≤ g.offset by
      decide).imp fun {f g} => far f g

/-- The instance with the id 57, the tag `A` and a NULL label. -/
def sampleInstance : Mem := fun i => if i = 0 then 57 else if i = 5 then 65 else 0

theorem sampleInstance_fits : ∀ f ∈ sampleType.fields, ∀ v,
    valueText sampleFloat StrHeap.empty sampleInstance f = some v →
      (recordText f.name v).length ≤ 255 := by
  have h : ∀ f ∈ sampleType.fields, ∀ v ∈ (valueText sampleFloat StrHeap.empty sampleInstance f),
      (recordText f.name v).length ≤ 255 := by decide +kernel
  exact h

/-- `sampleInstance` restored over the zeroed instance. -/
theorem hkDeserialize_hkSerialize_sample :
    ∃ st'' reg'', hkDeserialize sampleFloat (sampleState fun _ => 0) 1 "sample".toList
        (some "id=57;on=false;tag=A;label=\"\";".toList) = .ok (0, st'') ∧
      findRegistered st'' 1 "sample".toList = .ok (some (0, reg'')) ∧
      reg''.typeInfo = sampleType ∧
      (∀ f ∈ sampleType.fields, f.type ∈ [.int, .bool, .char, .string] →
        readField st''.strs reg''.dInstance f = readField StrHeap.empty sampleInstance f) ∧
      ∀ f ∈ sampleType.fields, f.type ∈ [.struct, .ptr] →
        reg''.dInstance.read f.offset f.span = Mem.read (fun _ => 0) f.offset f.span :=
  @hkDeserialize_hkSerialize sampleFloat (sampleState sampleInstance) (sampleState fun _ => 0)
    1 100 0 0 "sample".toList _ ⟨1, sampleType, sampleInstance⟩ ⟨1, sampleType, fun _ => 0⟩
    rfl sampleType_codable (by decide) (by unfold Carried; decide) sampleInstance_fits
    (by decide +kernel) (by decide) rfl rfl (by decide)

end HeapKit
end CoreCDTL
