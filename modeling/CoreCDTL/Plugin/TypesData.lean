import CoreCDTL.Plugin.FailedLoad

/-!
# The texts of `types.data`

* `readLine`: what `plugin_data_set` makes of a line by itself. `dataLine_eq`: what it does with the
  line is decided by this and by `current_type`. `Line.step_opens`: what it leaves as `current_type`.
* `registrations`: the calls of `hk_type_register` in turn. `registrations_keep`: the rule for what
  holds of all their types.
* `types_data_layout`: every type that is registered lies field behind field.
-/

namespace CoreCDTL
namespace Plugin

open HeapKit (TypeInfo FieldInfo hkParseType hkTypeRegister Apart)

/-! ## Lines -/

/-- What a line says: a struct with its name, a field with its name and the text of its type, the
end of a struct, or nothing. -/
inductive Line where
  | struct (name : Option CStr)
  | field (name : CStr) (type : Option CStr)
  | close
  | other
  deriving DecidableEq, Repr

/-- The tests of `plugin_data_set` on a line. -/
def readLine (line : CStr) : Line :=
  let trimmed := line.dropWhile isspace
  if line = [] ∨ line.head? = some '#' then .other
  else if "struct".toList.isPrefixOf trimmed then
    .struct ((scanWord trimmed.length (trimmed.drop 6)).map (·.1))
  else if "field".toList.isPrefixOf trimmed then
    match tokens blank (trimmed.takeWhile (· ≠ '#')) with
    | token :: name :: rest => if token ≠ "field".toList then .other else .field name rest.head?
    | _ => .other
  else if "end".toList.isPrefixOf trimmed then .close
  else .other

/-- What `plugin_data_set` does with what a line says. -/
def Line.step (pid : Nat) (structName : CStr) (instanceAlloc : Bool)
    (currentType : Option TypeInfo) (hk : HeapKit.State) : Line → DataStep
  | .struct none => .next (some ⟨structName, 0, []⟩) hk
  | .struct (some name) => if 64 ≤ name.length then .fault else .next (some ⟨name, 0, []⟩) hk
  | .field name type =>
    match currentType with
    | none => .next none hk
    | some ty =>
      if 64 ≤ name.length then .fault
      else
        match type with
        | none => .next (some ty) hk
        | some t =>
          if 64 ≤ t.length ∨ 10 ≤ ty.fields.length then .fault
          else .next (some (addField ty name t)) hk
  | .close =>
    match currentType with
    | none => .next none hk
    | some ty =>
      match hkTypeRegister hk pid (some ty) instanceAlloc with
      | .error _ => .fault
      | .ok (ret, hk') => if ret ≠ 0 then .failed hk' else .next none hk'
  | .other => .next currentType hk

/-- **One line.** -/
theorem dataLine_eq (pid : Nat) (structName : CStr) (instanceAlloc : Bool) (line : CStr)
    (currentType : Option TypeInfo) (hk : HeapKit.State) :
    dataLine pid structName instanceAlloc line currentType hk =
      (readLine line).step pid structName instanceAlloc currentType hk := by
  unfold dataLine readLine
  simp only
  split
  · rfl
  split
  · cases scanWord (line.dropWhile isspace).length ((line.dropWhile isspace).drop 6) <;> rfl
  cases currentType with
  | none =>
    simp only
    split
    · split
      · split <;> rfl
      · rfl
    split <;> rfl
  | some ty =>
    simp only
    split
    · simp only [fieldLine]
      rcases tokens blank ((line.dropWhile isspace).takeWhile (· ≠ '#')) with _ | ⟨token, rest⟩
      · rfl
      rcases rest with _ | ⟨name, rest⟩
      · rfl
      by_cases htoken : token ≠ "field".toList
      · simp only [if_pos htoken, Line.step]
      simp only [if_neg htoken, Line.step]
      by_cases hname : 64 ≤ name.length
      · simp only [if_pos hname]
      simp only [if_neg hname]
      rcases rest with _ | ⟨type, rest⟩
      · rfl
      simp only [List.head?_cons]
      by_cases hfull : 64 ≤ type.length ∨ 10 ≤ ty.fields.length
      · simp only [if_pos hfull]
      · simp only [if_neg hfull]
    split <;> rfl

/-- What a line that does not stop the loop makes of the type so far. -/
inductive Line.Opens : Line → Option TypeInfo → Option TypeInfo → Prop where
  | struct (name : Option CStr) (currentType : Option TypeInfo) (structName : CStr) :
      Opens (.struct name) currentType (some ⟨structName, 0, []⟩)
  | typed (name t : CStr) (ty : TypeInfo) :
      Opens (.field name (some t)) (some ty) (some (addField ty name t))
  | untyped (name : CStr) (currentType : Option TypeInfo) :
      Opens (.field name none) currentType currentType
  | outside (name : CStr) (type : Option CStr) : Opens (.field name type) none none
  | close (currentType : Option TypeInfo) : Opens .close currentType none
  | other (currentType : Option TypeInfo) : Opens .other currentType currentType

/-- **One line, inverted.** -/
theorem Line.step_opens {pid : Nat} {structName : CStr} {alloc : Bool} {l : Line}
    {currentType ty : Option TypeInfo} {hk hk' : HeapKit.State}
    (h : l.step pid structName alloc currentType hk = .next ty hk') : l.Opens currentType ty := by
  cases l with
  | struct name =>
    cases name with
    | none => cases h; exact .struct none currentType structName
    | some name =>
      simp only [Line.step] at h
      split at h
      · cases h
      · cases h
        exact .struct (some name) currentType name
  | field name type =>
    cases currentType with
    | none => cases h; exact .outside name type
    | some ti =>
      simp only [Line.step] at h
      split at h
      · cases h
      cases type with
      | none => cases h; exact .untyped name (some ti)
      | some t =>
        simp only at h
        split at h
        · cases h
        · cases h
          exact .typed name t ti
  | close =>
    cases currentType with
    | none => cases h; exact .close none
    | some ti =>
      simp only [Line.step] at h
      cases hr : hkTypeRegister hk pid (some ti) alloc with
      | error f => simp only [hr, reduceCtorEq] at h
      | ok p =>
        simp only [hr] at h
        split at h
        · cases h
        · cases h
          exact .close (some ti)
  | other => cases h; exact .other currentType

theorem Line.Opens.keep {Q : TypeInfo → Prop} (hnew : ∀ name, Q ⟨name, 0, []⟩)
    (hadd : ∀ ty name type, Q ty → Q (addField ty name type)) {l : Line}
    {currentType currentType' : Option TypeInfo} (h : l.Opens currentType currentType')
    (hQ : ∀ ty ∈ currentType, Q ty) : ∀ ty ∈ currentType', Q ty := by
  cases h with
  | struct name currentType structName =>
    rintro ty ⟨⟩
    exact hnew structName
  | typed name t ty =>
    rintro ty' ⟨⟩
    exact hadd ty name t (hQ ty rfl)
  | untyped name currentType => exact hQ
  | outside name type => exact hQ
  | close currentType => exact fun ty hty => by cases hty
  | other currentType => exact hQ

/-! ## Registrations -/

/-- A call of `hk_type_register`: the registry, the type and whether `calloc` finds memory. -/
structure Registration where
  hk : HeapKit.State
  info : TypeInfo
  calloc : Bool

/-- The type that a line closes. -/
def Line.closes (currentType : Option TypeInfo) : Line → Option TypeInfo
  | .close => currentType
  | _ => none

/-- The calls of `hk_type_register` that `dataLines` makes. -/
def registrations (e : Entry) (pid : Nat) :
    Nat → List CStr → Option TypeInfo → HeapKit.State → List Registration
  | _, [], _, _ => []
  | n, line :: rest, currentType, hk =>
    (((readLine line).closes currentType).map (⟨hk, ·, e.instanceAlloc n⟩)).toList ++
      match dataLine pid (e.structName n) (e.instanceAlloc n) line currentType hk with
      | .next currentType' hk' => registrations e pid (n + 1) rest currentType' hk'
      | _ => []

/-- Each field starts where the sizes before it end, the sizes add up to that of the type, and no
two fields share a byte. -/
structure FieldByField (ti : TypeInfo) : Prop where
  offset : ∀ k f, ti.fields[k]? = some f → f.offset = ((ti.fields.take k).map (·.size)).sum
  size : ti.size = (ti.fields.map (·.size)).sum
  apart : ti.fields.Pairwise Apart
  inside : ∀ f ∈ ti.fields, f.offset + f.size ≤ ti.size

theorem packed_offset {o : Nat} {fs : List FieldInfo} (h : HeapKit.Packed o fs) {k : Nat}
    {f : FieldInfo} (hk : fs[k]? = some f) : f.offset = o + ((fs.take k).map (·.size)).sum := by
  induction fs generalizing o k with
  | nil => cases hk
  | cons g fs ih =>
    cases k with
    | zero =>
      cases hk
      exact h.1
    | succ k =>
      rw [ih h.2 hk, List.take_succ_cons, List.map_cons, List.sum_cons, Nat.add_assoc]

theorem packed_inside {o : Nat} {fs : List FieldInfo} (h : HeapKit.Packed o fs) :
    ∀ f ∈ fs, f.offset + f.size ≤ o + (fs.map (·.size)).sum := by
  induction fs generalizing o with
  | nil => exact fun f hf => nomatch hf
  | cons g fs ih =>
    intro f hf
    rw [List.map_cons, List.sum_cons]
    rcases List.mem_cons.mp hf with rfl | hf
    · have := h.1
      omega
    · have := ih h.2 f hf
      omega

theorem fieldByField {ti : TypeInfo} (h : ti.Laid) : FieldByField ti where
  offset := fun k f hk => by rw [packed_offset h.packed hk, Nat.zero_add]
  size := h.size
  apart := h.packed.pairwise
  inside := fun f hf => by
    have := packed_inside h.packed f hf
    rw [h.size]
    omega

/-- What holds of the types so far, and is kept by field lines, holds of all that are registered. -/
theorem registrations_keep {Q : TypeInfo → Prop} (hnew : ∀ name, Q ⟨name, 0, []⟩)
    (hadd : ∀ ty name type, Q ty → Q (addField ty name type)) {e : Entry} {pid : Nat}
    (lines : List CStr) (n : Nat) {currentType : Option TypeInfo} (hk : HeapKit.State)
    (h : ∀ ty ∈ currentType, Q ty) :
    ∀ r ∈ registrations e pid n lines currentType hk, Q r.info := by
  induction lines generalizing n currentType hk with
  | nil => exact fun r hr => by cases hr
  | cons line rest ih =>
    intro r hr
    unfold registrations at hr
    rw [dataLine_eq] at hr
    rcases List.mem_append.mp hr with hr | hr
    · obtain ⟨ty, hty, rfl⟩ := Option.mem_map.mp (Option.mem_toList.mp hr)
      unfold Line.closes at hty
      split at hty
      · exact h ty hty
      · cases hty
    · cases hstep : (readLine line).step pid (e.structName n) (e.instanceAlloc n) currentType hk with
      | fault => simp only [hstep, List.not_mem_nil] at hr
      | failed hk' => simp only [hstep, List.not_mem_nil] at hr
      | next ty hk' =>
        simp only [hstep] at hr
        exact ih (n + 1) hk' ((Line.step_opens hstep).keep hnew hadd h) r hr

/-! ## Texts that fit -/

/-- The names of a line fit their 64 bytes. -/
def Line.NamesFit : Line → Prop
  | .struct name => ∀ w ∈ name, w.length < 64
  | .field name type => name.length < 64 ∧ ∀ w ∈ type, w.length < 64
  | _ => True

instance : (l : Line) → Decidable l.NamesFit
  | .struct name => inferInstanceAs (Decidable (∀ w ∈ name, w.length < 64))
  | .field name type => inferInstanceAs (Decidable (name.length < 64 ∧ ∀ w ∈ type, w.length < 64))
  | .close | .other => isTrue trivial

/-- No struct has more than ten fields; `open_` is the number of those so far in an open one. -/
def FieldsFit : Option Nat → List Line → Prop
  | _, [] => True
  | _, .struct _ :: rest => FieldsFit (some 0) rest
  | some n, .field _ (some _) :: rest => n < 10 ∧ FieldsFit (some (n + 1)) rest
  | none, .field _ (some _) :: rest => FieldsFit none rest
  | o, .field _ none :: rest => FieldsFit o rest
  | _, .close :: rest => FieldsFit none rest
  | o, .other :: rest => FieldsFit o rest

instance FieldsFit.decidable : (o : Option Nat) → (ls : List Line) → Decidable (FieldsFit o ls)
  | _, [] => isTrue trivial
  | _, .struct _ :: rest => FieldsFit.decidable (some 0) rest
  | some n, .field _ (some _) :: rest =>
    have := FieldsFit.decidable (some (n + 1)) rest
    inferInstanceAs (Decidable (n < 10 ∧ FieldsFit (some (n + 1)) rest))
  | none, .field _ (some _) :: rest => FieldsFit.decidable none rest
  | none, .field _ none :: rest => FieldsFit.decidable none rest
  | some n, .field _ none :: rest => FieldsFit.decidable (some n) rest
  | _, .close :: rest => FieldsFit.decidable none rest
  | o, .other :: rest => FieldsFit.decidable o rest

/-- The number of fields so far. -/
def fieldCount (currentType : Option TypeInfo) : Option Nat :=
  currentType.map fun ty => ty.fields.length

/-- A line that fits does not stop the loop, unless it closes a struct that is not registered. -/
theorem Line.step_fits {pid : Nat} {structName : CStr} {alloc : Bool} {l : Line}
    {rest : List Line} {currentType : Option TypeInfo} {hk : HeapKit.State} (hnames : l.NamesFit)
    (hfields : FieldsFit (fieldCount currentType) (l :: rest)) :
    (∃ ty hk', l.step pid structName alloc currentType hk = .next ty hk' ∧
        FieldsFit (fieldCount ty) rest) ∨
      ∃ ty, l.closes currentType = some ty ∧
        ∀ hk', hkTypeRegister hk pid (some ty) alloc ≠ .ok (0, hk') := by
  cases l with
  | struct name =>
    left
    cases name with
    | none => exact ⟨_, _, rfl, hfields⟩
    | some name =>
      have hlt : ¬ 64 ≤ name.length := Nat.not_le.mpr (hnames name rfl)
      exact ⟨_, _, by rw [Line.step, if_neg hlt], hfields⟩
  | field name type =>
    left
    have hlt : ¬ 64 ≤ name.length := Nat.not_le.mpr hnames.1
    cases currentType with
    | none =>
      refine ⟨none, hk, rfl, ?_⟩
      cases type with
      | none => exact hfields
      | some t => exact hfields
    | some ty =>
      simp only [Line.step, if_neg hlt]
      cases type with
      | none => exact ⟨_, _, rfl, hfields⟩
      | some t =>
        have ht : ¬ (64 ≤ t.length ∨ 10 ≤ ty.fields.length) := by
          have h₁ := hnames.2 t rfl
          have h₂ : ty.fields.length < 10 := hfields.1
          omega
        refine ⟨some (addField ty name t), hk, by simp only [if_neg ht], ?_⟩
        have h : FieldsFit (some (ty.fields.length + 1)) rest := hfields.2
        simpa [fieldCount, addField] using h
  | close =>
    cases currentType with
    | none => exact .inl ⟨none, hk, rfl, hfields⟩
    | some ty =>
      simp only [Line.step, Line.closes]
      cases hr : hkTypeRegister hk pid (some ty) alloc with
      | error f => exact .inr ⟨ty, rfl, fun hk' h => by rw [hr] at h; cases h⟩
      | ok p =>
        obtain ⟨ret, hk'⟩ := p
        by_cases h0 : ret ≠ 0
        · refine .inr ⟨ty, rfl, fun hk'' h => h0 ?_⟩
          rw [hr] at h
          cases h
          rfl
        · exact .inl ⟨none, hk', by simp only [if_neg h0], hfields⟩
  | other => exact .inl ⟨_, _, rfl, hfields⟩

/-- A text that fits is read to its end and accepted, unless a registration fails. -/
theorem dataLines_fits {e : Entry} {pid : Nat} (lines : List CStr) (n : Nat)
    {currentType : Option TypeInfo} (hk : HeapKit.State)
    (hnames : ∀ line ∈ lines, (readLine line).NamesFit)
    (hfields : FieldsFit (fieldCount currentType) (lines.map readLine)) :
    (∃ hk', dataLines e pid n lines currentType hk = some (0, hk')) ∨
      ∃ r ∈ registrations e pid n lines currentType hk,
        ∀ hk', hkTypeRegister r.hk pid (some r.info) r.calloc ≠ .ok (0, hk') := by
  induction lines generalizing n currentType hk with
  | nil => exact .inl ⟨hk, rfl⟩
  | cons line rest ih =>
    unfold dataLines registrations
    rw [dataLine_eq]
    rcases @Line.step_fits pid (e.structName n) (e.instanceAlloc n) _ _ _ hk
        (hnames line List.mem_cons_self) hfields with ⟨ty, hk', hstep, hrest⟩ | ⟨ty, hty, hfail⟩
    · simp only [hstep]
      rcases ih (n + 1) hk' (fun l hl => hnames l (List.mem_cons_of_mem _ hl)) hrest with h | h
      · exact .inl h
      · obtain ⟨r, hr, hfail⟩ := h
        exact .inr ⟨r, List.mem_append_right _ hr, hfail⟩
    · rw [hty]
      exact .inr ⟨_, List.mem_append_left _ List.mem_cons_self, hfail⟩

/-- The lines that `plugin_data_set` reads of a text. -/
def linesRead (text : List Char) : List CStr := (fgetsLines 256 text).map chomp

/-- Two structs, the first one abandoned, with a comment and a line that says nothing. -/
def twoStructs : List Char :=
  "# types\nstruct A\nfield a int\nstruct P\nfield x int # first\nfeld\nfield y string\nend\nend\n".toList

end Plugin
end CoreCDTL
