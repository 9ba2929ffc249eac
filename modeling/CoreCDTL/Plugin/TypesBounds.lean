import CoreCDTL.Plugin.TypesData

/-!
# The bounds and the alignment of `types.data`

* `Write`: what `plugin_data_set` writes to its local arrays and to `current_fields`.
  `types_bounds_iff`: when all of it stays inside.
* `InOrder`: the order of field types in which no field needs padding. `types_aligned_iff`: the
  fields of the registered types are aligned exactly when their types stand in such an order.
-/

namespace CoreCDTL
namespace Plugin

open HeapKit (TypeInfo FieldInfo FieldType hkParseType hkTypeSize hkTypeRegister Packed)

/-! ## Writes -/

def HEAPKIT_MAX_FIELD : Nat := 10

/-- A string copied into one of the arrays of `plugin_data_set`, by its length, or an entry of
`current_fields`. -/
inductive Write where
  | structName (length : Nat)
  | fieldName (length : Nat)
  | fieldType (length : Nat)
  | currentFields (index : Nat)
  deriving DecidableEq, Repr

/-- A string leaves room for its NUL in the 64 bytes, an entry is one of the block. -/
def Write.InBounds : Write → Prop
  | structName length | fieldName length | fieldType length => length < 64
  | currentFields index => index < HEAPKIT_MAX_FIELD

/-- The writes for a line; `fields` is the number of fields so far in an open struct. -/
def Line.writes (fields : Option Nat) : Line → List Write
  | .struct name => name.toList.map fun w => .structName w.length
  | .field name type => fields.toList.flatMap fun n =>
      .fieldName name.length :: type.toList.flatMap fun t => [.fieldType t.length, .currentFields n]
  | .close | .other => []

/-- The writes for the lines, up to one that ends the loop. -/
def writes (e : Entry) (pid : Nat) :
    Nat → List CStr → Option TypeInfo → HeapKit.State → List Write
  | _, [], _, _ => []
  | n, line :: rest, currentType, hk =>
    (readLine line).writes (fieldCount currentType) ++
      match dataLine pid (e.structName n) (e.instanceAlloc n) line currentType hk with
      | .next currentType' hk' => writes e pid (n + 1) rest currentType' hk'
      | _ => []

/-! ## Texts whose writes stay inside -/

/-- The lines that the loop gets to. -/
def linesUsed (e : Entry) (pid : Nat) :
    Nat → List CStr → Option TypeInfo → HeapKit.State → List Line
  | _, [], _, _ => []
  | n, line :: rest, currentType, hk =>
    readLine line ::
      match dataLine pid (e.structName n) (e.instanceAlloc n) line currentType hk with
      | .next currentType' hk' => linesUsed e pid (n + 1) rest currentType' hk'
      | _ => []

/-- The number of fields in an open struct after a line. -/
def Line.fieldsAfter (fields : Option Nat) : Line → Option Nat
  | .struct _ => some 0
  | .field _ type => fields.map (· + type.toList.length)
  | .close => none
  | .other => fields

/-- The name of a struct fits its 64 bytes; in an open struct, so do the name and the type of a
field, and there is room for one more. -/
def Line.Fits (fields : Option Nat) : Line → Prop
  | .struct name => ∀ w ∈ name, w.length < 64
  | .field name type =>
    ∀ n ∈ fields, name.length < 64 ∧ ∀ t ∈ type, t.length < 64 ∧ n < HEAPKIT_MAX_FIELD
  | .close | .other => True

def LinesFit : Option Nat → List Line → Prop
  | _, [] => True
  | fields, l :: rest => l.Fits fields ∧ LinesFit (l.fieldsAfter fields) rest

/-- The writes for one line. -/
theorem Line.writes_inBounds_iff (fields : Option Nat) (l : Line) :
    (∀ w ∈ l.writes fields, w.InBounds) ↔ l.Fits fields := by
  cases l with
  | struct name => cases name <;> simp [Line.writes, Line.Fits, Write.InBounds]
  | field name type =>
    cases fields <;> cases type <;> simp [Line.writes, Line.Fits, Write.InBounds]
  | close => simp [Line.writes, Line.Fits]
  | other => simp [Line.writes, Line.Fits]

/-- The number of fields after a line that does not stop the loop. -/
theorem Line.Opens.fieldCount {l : Line} {currentType ty : Option TypeInfo}
    (h : l.Opens currentType ty) :
    Plugin.fieldCount ty = l.fieldsAfter (Plugin.fieldCount currentType) := by
  cases h with
  | typed name t ty => simp [Plugin.fieldCount, addField, Line.fieldsAfter]
  | untyped name currentType => cases currentType <;> rfl
  | _ => rfl

/-- The fields of an open struct stay within their block. -/
theorem Line.Fits.fieldsAfter {l : Line} {fields : Option Nat} (h : l.Fits fields)
    (hle : ∀ n ∈ fields, n ≤ HEAPKIT_MAX_FIELD) : ∀ n ∈ l.fieldsAfter fields, n ≤ HEAPKIT_MAX_FIELD := by
  cases l with
  | struct name =>
    rintro n ⟨⟩
    exact Nat.zero_le _
  | field name type =>
    rintro n hn
    obtain ⟨m, hm, rfl⟩ := Option.map_eq_some_iff.mp hn
    cases type with
    | none => exact hle m hm
    | some t => exact ((h m hm).2 t rfl).2
  | close => exact fun n hn => by cases hn
  | other => exact hle

/-- **The writes of the loop.** The registered types have no more fields than were written. -/
theorem writes_inBounds_iff {e : Entry} {pid : Nat} (lines : List CStr) (n : Nat)
    {currentType : Option TypeInfo} (hk : HeapKit.State)
    (hle : ∀ k ∈ fieldCount currentType, k ≤ HEAPKIT_MAX_FIELD) :
    (∀ w ∈ writes e pid n lines currentType hk, w.InBounds) ∧
        (∀ r ∈ registrations e pid n lines currentType hk,
          r.info.fields.length ≤ HEAPKIT_MAX_FIELD) ↔
      LinesFit (fieldCount currentType) (linesUsed e pid n lines currentType hk) := by
  induction lines generalizing n currentType hk with
  | nil => simp [writes, registrations, linesUsed, LinesFit]
  | cons line rest ih =>
    have hclosed : ∀ r ∈ (((readLine line).closes currentType).map
        (⟨hk, ·, e.instanceAlloc n⟩ : TypeInfo → Registration)).toList,
          r.info.fields.length ≤ HEAPKIT_MAX_FIELD := by
      intro r hr
      obtain ⟨ty, hty, rfl⟩ := Option.mem_map.mp (Option.mem_toList.mp hr)
      unfold Line.closes at hty
      split at hty
      · rw [hty] at hle
        exact hle _ rfl
      · cases hty
    unfold writes registrations linesUsed
    rw [dataLine_eq, LinesFit, List.forall_mem_append, List.forall_mem_append,
      Line.writes_inBounds_iff, and_iff_right hclosed, and_assoc]
    refine and_congr_right fun hfits => ?_
    cases hstep : (readLine line).step pid (e.structName n) (e.instanceAlloc n) currentType hk with
    | fault => simp [LinesFit]
    | failed hk' => simp [LinesFit]
    | next ty hk' =>
      have hcount := (Line.step_opens hstep).fieldCount
      rw [← hcount]
      exact ih (n + 1) hk' (hcount ▸ hfits.fieldsAfter hle)

/-- The lines that are read of the entry's `types.data`. -/
def Entry.typesLines (e : Entry) : List CStr := e.data.elim [] linesRead

/-- **When nothing is written out of bounds.** For every `types.data`: every string that
`plugin_data_set` copies is shorter than 64 bytes, every entry of `current_fields` is below
`HEAPKIT_MAX_FIELD`, and no type is registered with more fields, if and only if, among the lines
that it gets to, each struct line and each field line of an open struct has names shorter than 64
bytes, and no struct has more than `HEAPKIT_MAX_FIELD` field lines with a name and a type. -/
theorem types_bounds_iff (e : Entry) (pid : Nat) (hk : HeapKit.State) :
    (∀ w ∈ writes e pid 0 e.typesLines none hk, w.InBounds) ∧
        (∀ r ∈ registrations e pid 0 e.typesLines none hk,
          r.info.fields.length ≤ HEAPKIT_MAX_FIELD) ↔
      LinesFit none (linesUsed e pid 0 e.typesLines none hk) :=
  writes_inBounds_iff e.typesLines 0 hk fun k hk => by cases hk

/-- A struct with eleven fields. -/
def elevenFields : Entry :=
  { pluginDir ['a'] true with
    data := some ("struct P\n".toList ++ (List.replicate 11 "field x int\n".toList).flatten) }

/-- A field whose name has 64 characters. -/
def longFieldName : Entry :=
  { pluginDir ['a'] true with
    data := some ("struct P\nfield ".toList ++ List.replicate 64 'n' ++ " int\nend\n".toList) }

/-- **Two texts that write out of bounds**: past the block of the fields, and past `field_name`. -/
theorem types_write_past_end :
    (¬ ∀ w ∈ writes elevenFields 1 0 elevenFields.typesLines none noTypes, w.InBounds) ∧
      ¬ ∀ w ∈ writes longFieldName 1 0 longFieldName.typesLines none noTypes, w.InBounds := by
  have hindex : Write.currentFields 10 ∈
      writes elevenFields 1 0 elevenFields.typesLines none noTypes := by decide +kernel
  have hlength : Write.fieldName 64 ∈
      writes longFieldName 1 0 longFieldName.typesLines none noTypes := by decide +kernel
  exact ⟨fun h => Nat.lt_irrefl 10 (h _ hindex), fun h => Nat.lt_irrefl 64 (h _ hlength)⟩

/-! ## Alignment -/

/-- The offset is a multiple of the size of the field's type, if it has one, and so is the address
in an instance from `malloc`. -/
structure Aligned (f : FieldInfo) : Prop where
  offset : hkTypeSize f.type ≠ 0 → hkTypeSize f.type ∣ f.offset
  access : ∀ base, 16 ∣ base → hkTypeSize f.type ≠ 0 → hkTypeSize f.type ∣ base + f.offset

theorem aligned_iff {f : FieldInfo} :
    Aligned f ↔ (hkTypeSize f.type ≠ 0 → hkTypeSize f.type ∣ f.offset) := by
  refine ⟨Aligned.offset, fun h => ⟨h, fun base hbase hne => ?_⟩⟩
  have h₁₆ : hkTypeSize f.type ∣ 16 := by
    revert hne
    cases f.type <;> decide
  exact Nat.dvd_add (h₁₆.trans hbase) (h hne)

/-- Types of one byte, and of four. -/
def isByte (t : FieldType) : Bool := t = .bool || t = .char

def isWord (t : FieldType) : Bool := t = .int || t = .float

/-- The order of the types of a struct, behind `bytes` types of one byte and `words` of four. Before
each int and float stands a multiple of four bools and chars; before each string and pointer the
bools, chars, ints and floats take a multiple of eight bytes. -/
def InOrder : Nat → Nat → List FieldType → Prop
  | _, _, [] => True
  | bytes, words, t :: ts =>
    (isWord t = true → bytes % 4 = 0) ∧
      (t = .string ∨ t = .ptr → (bytes + 4 * words) % 8 = 0) ∧
      InOrder (bytes + (isByte t).toNat) (words + (isWord t).toNat) ts

/-- Fields that lie one behind the other. Strings and pointers take eight bytes, so only the others
count. -/
theorem packed_aligned_iff {fs : List FieldInfo} {o bytes words : Nat} (hp : Packed o fs)
    (hsize : ∀ f ∈ fs, f.size = hkTypeSize f.type) (ho : o % 8 = (bytes + 4 * words) % 8) :
    (∀ f ∈ fs, Aligned f) ↔ InOrder bytes words (fs.map (·.type)) := by
  induction fs generalizing o bytes words with
  | nil => simp [InOrder]
  | cons f fs ih =>
    obtain ⟨hoff, hrest⟩ := hp
    have hs := hsize f List.mem_cons_self
    have htail := fun b w h => @ih (o + f.size) b w hrest
      (fun g hg => hsize g (List.mem_cons_of_mem f hg)) h
    rw [List.forall_mem_cons, List.map_cons, InOrder, aligned_iff, hoff, ← and_assoc]
    cases ht : f.type <;> rw [ht] at hs <;> simp only [hkTypeSize] at hs <;>
      simp only [hkTypeSize, isByte, isWord] <;>
      refine and_congr ?_ (htail _ _ (by simp; omega)) <;> simp <;> omega

/-- The types that are registered: those of the structs whose end does not stop the loop. -/
def registered (e : Entry) (pid : Nat) :
    Nat → List CStr → Option TypeInfo → HeapKit.State → List TypeInfo
  | _, [], _, _ => []
  | n, line :: rest, currentType, hk =>
    match dataLine pid (e.structName n) (e.instanceAlloc n) line currentType hk with
    | .next currentType' hk' =>
      ((readLine line).closes currentType).toList ++ registered e pid (n + 1) rest currentType' hk'
    | _ => []

/-- The lines that the loop goes on after. -/
def linesDone (e : Entry) (pid : Nat) :
    Nat → List CStr → Option TypeInfo → HeapKit.State → List Line
  | _, [], _, _ => []
  | n, line :: rest, currentType, hk =>
    match dataLine pid (e.structName n) (e.instanceAlloc n) line currentType hk with
    | .next currentType' hk' => readLine line :: linesDone e pid (n + 1) rest currentType' hk'
    | _ => []

/-- The types of the fields of an open struct, after a line. -/
def Line.typesAfter (types : Option (List FieldType)) : Line → Option (List FieldType)
  | .struct _ => some []
  | .field _ type => types.map (· ++ type.toList.map fun t => (hkParseType t).1)
  | .close => none
  | .other => types

/-- The structs that lines end, each by the types of its fields. -/
def structs : Option (List FieldType) → List Line → List (List FieldType)
  | _, [] => []
  | types, l :: rest =>
    (if l = .close then types.toList else []) ++ structs (l.typesAfter types) rest

/-- The types of the fields after a line that does not stop the loop. -/
theorem Line.Opens.types {l : Line} {currentType ty : Option TypeInfo}
    (h : l.Opens currentType ty) :
    ty.map (·.fields.map (·.type)) =
      l.typesAfter (currentType.map (·.fields.map (·.type))) := by
  cases h with
  | typed name t ty => simp [addField, Line.typesAfter]
  | untyped name currentType => cases currentType <;> simp [Line.typesAfter]
  | _ => rfl

/-- The types that are registered are the structs of the lines. -/
theorem registered_types {e : Entry} {pid : Nat} (lines : List CStr) (n : Nat)
    (currentType : Option TypeInfo) (hk : HeapKit.State) :
    (registered e pid n lines currentType hk).map (·.fields.map (·.type)) =
      structs (currentType.map (·.fields.map (·.type)))
        (linesDone e pid n lines currentType hk) := by
  induction lines generalizing n currentType hk with
  | nil => rfl
  | cons line rest ih =>
    unfold registered linesDone
    rw [dataLine_eq]
    cases hstep : (readLine line).step pid (e.structName n) (e.instanceAlloc n) currentType hk with
    | fault => rfl
    | failed hk' => rfl
    | next ty hk' =>
      have hcloses : ((readLine line).closes currentType).toList.map (·.fields.map (·.type)) =
          if readLine line = .close then (currentType.map (·.fields.map (·.type))).toList else [] := by
        cases readLine line <;> cases currentType <;> simp [Line.closes]
      simp only [structs]
      rw [List.map_append, hcloses, ih (n + 1) ty hk', (Line.step_opens hstep).types]

/-- A type that is registered was passed to `hk_type_register`. -/
theorem registered_subset {e : Entry} {pid : Nat} (lines : List CStr) (n : Nat)
    (currentType : Option TypeInfo) (hk : HeapKit.State) :
    ∀ ti ∈ registered e pid n lines currentType hk,
      ∃ r ∈ registrations e pid n lines currentType hk, r.info = ti := by
  induction lines generalizing n currentType hk with
  | nil => exact fun ti hti => by cases hti
  | cons line rest ih =>
    intro ti hti
    unfold registered at hti
    unfold registrations
    cases hl : dataLine pid (e.structName n) (e.instanceAlloc n) line currentType hk with
    | fault => simp only [hl, List.not_mem_nil] at hti
    | failed hk' => simp only [hl, List.not_mem_nil] at hti
    | next ty hk' =>
      simp only [hl] at hti
      rcases List.mem_append.mp hti with hti | hti
      · exact ⟨⟨hk, ti, e.instanceAlloc n⟩,
          List.mem_append_left _ (Option.mem_toList.mpr (Option.mem_map_of_mem _
            (Option.mem_toList.mp hti))), rfl⟩
      · obtain ⟨r, hr, hinfo⟩ := ih (n + 1) ty hk' ti hti
        exact ⟨r, List.mem_append_right _ hr, hinfo⟩

/-- The types that are registered lie field behind field, each field as large as its type. -/
theorem registered_packed {e : Entry} {pid : Nat} (lines : List CStr) (hk : HeapKit.State) :
    ∀ ti ∈ registered e pid 0 lines none hk,
      ti.Laid ∧ ∀ f ∈ ti.fields, f.size = hkTypeSize f.type := by
  intro ti hti
  obtain ⟨r, hr, rfl⟩ := registered_subset lines 0 none hk ti hti
  refine registrations_keep (Q := fun ti => ti.Laid ∧ ∀ f ∈ ti.fields, f.size = hkTypeSize f.type)
    (fun name => ⟨laid_nil name, by simp⟩) (fun ty name type h => ?_) lines 0 hk (by simp) r hr
  refine ⟨addField_laid h.1 name type, fun f hf => ?_⟩
  rcases List.mem_append.mp hf with hf | hf
  · exact h.2 f hf
  · rw [List.mem_singleton.mp hf]

/-- **When fields are aligned.** For every `types.data`: all fields of all types that it registers
are aligned if and only if the types of the fields of each struct that it has registered stand in
such an order that none needs padding. -/
theorem types_aligned_iff (e : Entry) (pid : Nat) (hk : HeapKit.State) :
    (∀ ti ∈ registered e pid 0 e.typesLines none hk, ∀ f ∈ ti.fields, Aligned f) ↔
      ∀ types ∈ structs none (linesDone e pid 0 e.typesLines none hk), InOrder 0 0 types := by
  have hstructs := @registered_types e pid e.typesLines 0 none hk
  rw [Option.map_none] at hstructs
  rw [← hstructs, List.forall_mem_map]
  refine forall₂_congr fun ti hti => ?_
  obtain ⟨hlaid, hsize⟩ := registered_packed e.typesLines hk ti hti
  exact packed_aligned_iff hlaid.packed hsize rfl

/-- A struct with a char in front of an int. -/
def charThenInt : Entry :=
  { pluginDir ['a'] true with data := some "struct P\nfield c char\nfield x int\nend\n".toList }

/-- **An int at an odd address.** The struct is registered, with `x` at offset 1. -/
theorem types_misaligned :
    ¬ ∀ ti ∈ registered charThenInt 1 0 charThenInt.typesLines none noTypes,
      ∀ f ∈ ti.fields, Aligned f := by
  have hx : ⟨['x'], .int, 1, 4, none⟩ ∈
      (registered charThenInt 1 0 charThenInt.typesLines none noTypes).flatMap (·.fields) := by
    decide +kernel
  obtain ⟨ti, hti, hf⟩ := List.mem_flatMap.mp hx
  exact fun h => absurd ((h ti hti _ hf).offset (by decide)) (by decide)

end Plugin
end CoreCDTL
