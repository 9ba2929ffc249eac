import CoreCDTL.Plugin.TypesData

/-!
# The grammar of `types.data`

The texts that a plugin should ship: blocks of a `struct` line, at most ten `field` lines and an
`end` line, with blank lines and comments anywhere. The grammar says nothing of buffers and loops.

* `Text lax`: the blocks that a list of lines declares. With `lax` it admits three kinds of lines
  that a block has no place for: incomplete field lines, field lines outside a struct, and a struct
  without its `end`.
* `readLine_struct`, `readLine_field`, ..: the code's tests agree with the grammar's lines.
* `types_data_read`: `plugin_data_set` accepts every text that fits, and registers exactly the types
  that a text of the grammar declares; the lines that the grammar has no place for are skipped.
* `types_data_not_rejected`: none of the three makes it fail.
-/

namespace CoreCDTL
namespace Plugin

open HeapKit (TypeInfo FieldInfo hkParseType hkTypeRegister findSlot)

/-! ## The grammar -/

/-- The words of a line: what stands between spaces and tabs. -/
def words (s : CStr) : List CStr := tokens blank s

/-- A line without its comment. -/
def code (line : CStr) : CStr := line.takeWhile (· ≠ '#')

/-- A name of a struct, a field or a type. -/
structure IsName (s : CStr) : Prop where
  ne_nil : s ≠ []
  short : s.length < 64
  plain : ∀ c ∈ s, isspace c = false ∧ c ≠ '#'

theorem isName_of {s : CStr} (ne_nil : s ≠ []) (short : s.length < 64)
    (plain : (s.any fun c => isspace c || c = '#') = false) : IsName s where
  ne_nil := ne_nil
  short := short
  plain := fun c hc => by simpa using List.any_eq_false.mp plain c hc

/-- Nothing, or a comment. -/
def BlankLine (line : CStr) : Prop :=
  line.dropWhile isspace = [] ∨ (line.dropWhile isspace).head? = some '#'

/-- `struct NAME`; a comment behind it is a word of its own. -/
def StructLine (name line : CStr) : Prop :=
  IsName name ∧ ∃ rest, words line = "struct".toList :: name :: rest ∧
    ∀ w ∈ rest.head?, w.head? = some '#'

/-- `field NAME TYPE`. -/
def FieldLine (name type line : CStr) : Prop :=
  IsName name ∧ IsName type ∧ words (code line) = ["field".toList, name, type]

/-- A field line without a type, or without both. -/
def IncompleteField (line : CStr) : Prop :=
  words (code line) = ["field".toList] ∨
    ∃ name, IsName name ∧ words (code line) = ["field".toList, name]

/-- `end`. -/
def EndLine (line : CStr) : Prop := words (code line) = ["end".toList]

/-- The lines between `struct` and `end`, and the fields that they declare. -/
inductive Fields (lax : Bool) : List CStr → List (CStr × CStr) → Prop
  | nil : Fields lax [] []
  | blank {line lines fs} (h : BlankLine line) (rest : Fields lax lines fs) :
    Fields lax (line :: lines) fs
  | field {name type line lines fs} (h : FieldLine name type line) (rest : Fields lax lines fs) :
    Fields lax (line :: lines) ((name, type) :: fs)
  | incomplete {line lines fs} (admitted : lax = true) (h : IncompleteField line)
    (rest : Fields lax lines fs) : Fields lax (line :: lines) fs

/-- The lines of a text, and the structs with their fields that it declares. -/
inductive Text (lax : Bool) : List CStr → List (CStr × List (CStr × CStr)) → Prop
  | nil : Text lax [] []
  | blank {line lines ts} (h : BlankLine line) (rest : Text lax lines ts) :
    Text lax (line :: lines) ts
  | block {name first last body lines fs ts} (h : StructLine name first)
    (fields : Fields lax body fs) (ten : fs.length ≤ 10) (close : EndLine last)
    (rest : Text lax lines ts) : Text lax (first :: (body ++ last :: lines)) ((name, fs) :: ts)
  /-- A field line outside a struct. -/
  | stray {line lines ts} (admitted : lax = true)
    (h : IncompleteField line ∨ ∃ name type, FieldLine name type line)
    (rest : Text lax lines ts) : Text lax (line :: lines) ts
  /-- A struct without its `end`: the next one begins, or the text is over. -/
  | unterminated {name first body lines fs ts} (admitted : lax = true)
    (h : StructLine name first) (fields : Fields lax body fs) (ten : fs.length ≤ 10)
    (next : ∀ line ∈ lines.head?, ∃ name, StructLine name line) (rest : Text lax lines ts) :
    Text lax (first :: (body ++ lines)) ts

/-! ## The code's tests -/

theorem isspace_of_blank {c : Char} (h : blank c = true) : isspace c = true := by
  simp only [blank, Bool.or_eq_true, decide_eq_true_eq] at h
  rcases h with rfl | rfl <;> rfl

/-- Blanks in front of a text give no token. -/
theorem words_append {pre : CStr} (h : ∀ c ∈ pre, blank c = true) (s : CStr) :
    words (pre ++ s) = words s := by
  induction pre with
  | nil => rfl
  | cons c pre ih =>
    rw [List.cons_append]
    exact (tokens_cons (h c List.mem_cons_self) _).trans
      (ih fun x hx => h x (List.mem_cons_of_mem c hx))

/-- A line that starts with a keyword, seen behind its white space. -/
theorem trimmed_eq {s w : CStr} {ws : List CStr} (h : words s = w :: ws)
    (hw : w.any isspace = false) (tail : CStr) :
    ∃ post, (s ++ tail).dropWhile isspace = w ++ (post ++ tail) ∧ words (w ++ post) = w :: ws ∧
      words post = ws ∧ (∀ c ∈ post.head?, blank c = true) ∧ ∀ c ∈ w ++ post, c ∈ s := by
  obtain ⟨pre, post, rfl, hpre, hne, -, hpost, hws⟩ := tokens_eq_cons h
  rw [List.append_assoc, words_append hpre] at h
  refine ⟨post, ?_, h, hws, hpost, fun c hc => ?_⟩
  · obtain ⟨c, t, rfl⟩ := List.exists_cons_of_ne_nil hne
    rw [List.append_assoc, List.append_assoc, List.dropWhile_append_of_pos
      fun x hx => isspace_of_blank (hpre x hx)]
    exact List.dropWhile_cons_of_neg (List.any_eq_false.mp hw c List.mem_cons_self)
  · rw [List.append_assoc]
    exact List.mem_append_right pre hc

/-- `sscanf` takes the next word. -/
theorem scanWord_word {s name : CStr} {ws : List CStr} {n : Nat} (h : words s = name :: ws)
    (hname : ∀ c ∈ name, isspace c = false) (hn : name.length ≤ n) :
    (scanWord n s).map (·.1) = some name := by
  obtain ⟨pre, post, rfl, hpre, hne, -, hpost, -⟩ := tokens_eq_cons h
  have hdrop : (pre ++ name ++ post).dropWhile isspace = name ++ post := by
    obtain ⟨c, t, rfl⟩ := List.exists_cons_of_ne_nil hne
    rw [List.append_assoc, List.dropWhile_append_of_pos
      fun x hx => isspace_of_blank (hpre x hx)]
    exact List.dropWhile_cons_of_neg (by simp [hname c List.mem_cons_self])
  have htake : (name ++ post).takeWhile (fun c => ! isspace c) = name := by
    rw [List.takeWhile_append_of_pos fun c hc => by simp [hname c hc]]
    cases post with
    | nil => simp
    | cons c post =>
      have hc : isspace c = true := isspace_of_blank (hpost c rfl)
      rw [List.takeWhile_cons_of_neg (by simp [hc]), List.append_nil]
  unfold scanWord
  simp only [hdrop, htake, List.take_of_length_le hn, if_neg hne, Option.map_some]

/-- A line that has words before its comment is neither empty nor a comment. -/
theorem not_skipped {line w : CStr} {ws : List CStr} (h : words (code line) = w :: ws) :
    ¬ (line = [] ∨ line.head? = some '#') := by
  have hne : code line ≠ [] := by
    intro he
    rw [he] at h
    cases h
  rintro (rfl | hc)
  · exact hne rfl
  · obtain ⟨t, rfl⟩ := List.head?_eq_some_iff.mp hc
    exact hne (List.takeWhile_cons_of_neg (by simp))

theorem readLine_blank {line : CStr} (h : BlankLine line) : readLine line = .other := by
  unfold readLine
  simp only
  split
  · rfl
  · rcases h with h | h
    · rw [h]
      rfl
    · obtain ⟨t, ht⟩ := List.head?_eq_some_iff.mp h
      rw [ht]
      rfl

theorem readLine_struct {name line : CStr} (h : StructLine name line) :
    readLine line = .struct (some name) := by
  obtain ⟨hname, rest, hwords, -⟩ := h
  have hspace : ∀ c ∈ name, isspace c = false := fun c hc => (hname.plain c hc).1
  obtain ⟨post, hdrop, -, hpost, -⟩ := trimmed_eq hwords (by decide) []
  rw [List.append_nil, List.append_nil] at hdrop
  have hskip : ¬ (line = [] ∨ line.head? = some '#') := by
    rintro (rfl | hc)
    · cases hwords
    · obtain ⟨t, rfl⟩ := List.head?_eq_some_iff.mp hc
      cases hdrop
  have hlen : name.length ≤ ("struct".toList ++ post).length := by
    obtain ⟨pre, tail, he, -⟩ := tokens_eq_cons hpost
    rw [he]
    simp only [List.length_append]
    omega
  have hscan := scanWord_word hpost hspace hlen
  unfold readLine
  simp only [if_neg hskip, hdrop]
  rw [if_pos (by rfl)]
  exact congrArg Line.struct hscan

/-- What a line with the keyword `field` says. -/
theorem readLine_keyword {line : CStr} {ws : List CStr}
    (h : words (code line) = "field".toList :: ws) :
    readLine line = match ws with
      | [] => .other
      | name :: rest => .field name rest.head? := by
  have hline : line = code line ++ line.dropWhile (· ≠ '#') := List.takeWhile_append_dropWhile.symm
  obtain ⟨post, hdrop, hwords, -, -, hmem⟩ := trimmed_eq h (by decide) (line.dropWhile (· ≠ '#'))
  rw [← hline] at hdrop
  have hcode : (line.dropWhile isspace).takeWhile (· ≠ '#') = "field".toList ++ post := by
    rw [hdrop, ← List.append_assoc, List.takeWhile_append_of_pos fun c hc =>
      List.mem_takeWhile_imp (hmem c hc)]
    rcases htail : line.dropWhile (· ≠ '#') with _ | ⟨c, tail⟩
    · simp
    · have hc := List.head?_dropWhile_not (fun c : Char => decide (c ≠ '#')) line
      rw [htail] at hc
      rw [List.takeWhile_cons_of_neg (by simpa using hc), List.append_nil]
  unfold readLine
  simp only [if_neg (not_skipped h), hcode]
  rw [hdrop, if_neg (by exact Bool.false_ne_true), if_pos (by rfl)]
  unfold words at hwords
  rw [hwords]
  cases ws with
  | nil => rfl
  | cons name rest => rfl

theorem readLine_end {line : CStr} (h : EndLine line) : readLine line = .close := by
  have hline : line = code line ++ line.dropWhile (· ≠ '#') := List.takeWhile_append_dropWhile.symm
  obtain ⟨post, hdrop, -⟩ := trimmed_eq h (by decide) (line.dropWhile (· ≠ '#'))
  rw [← hline] at hdrop
  unfold readLine
  simp only [if_neg (not_skipped h), hdrop]
  rfl

theorem readLine_field {name type line : CStr} (h : FieldLine name type line) :
    readLine line = .field name (some type) :=
  readLine_keyword h.2.2

theorem readLine_incomplete {line : CStr} (h : IncompleteField line) :
    readLine line = .other ∨ ∃ name, name.length < 64 ∧ readLine line = .field name none := by
  rcases h with h | ⟨name, hname, h⟩
  · exact .inl (readLine_keyword h)
  · exact .inr ⟨name, hname.short, readLine_keyword h⟩

/-! ## Reading a text -/

section Run

variable {e : Entry} {pid : Nat}

/-- A line that registers nothing. -/
theorem next_line {line : CStr} {ty ty' : Option TypeInfo} {hk : HeapKit.State}
    (hstep : ∀ structName alloc, (readLine line).step pid structName alloc ty hk = .next ty' hk)
    (hclose : (readLine line).closes ty = none) (n : Nat) (rest : List CStr) :
    dataLines e pid n (line :: rest) ty hk = dataLines e pid (n + 1) rest ty' hk ∧
      registrations e pid n (line :: rest) ty hk = registrations e pid (n + 1) rest ty' hk := by
  constructor
  · simp only [dataLines, dataLine_eq, hstep]
  · simp only [registrations, dataLine_eq, hstep, hclose]
    rfl

theorem blank_line {line : CStr} (h : BlankLine line) (ty : Option TypeInfo) (hk : HeapKit.State)
    (n : Nat) (rest : List CStr) :
    dataLines e pid n (line :: rest) ty hk = dataLines e pid (n + 1) rest ty hk ∧
      registrations e pid n (line :: rest) ty hk = registrations e pid (n + 1) rest ty hk := by
  have hread := readLine_blank h
  exact next_line (fun _ _ => by rw [hread]; rfl) (by rw [hread]; rfl) n rest

theorem struct_line {name line : CStr} (h : StructLine name line) (ty : Option TypeInfo)
    (hk : HeapKit.State) (n : Nat) (rest : List CStr) :
    dataLines e pid n (line :: rest) ty hk =
        dataLines e pid (n + 1) rest (some ⟨name, 0, []⟩) hk ∧
      registrations e pid n (line :: rest) ty hk =
        registrations e pid (n + 1) rest (some ⟨name, 0, []⟩) hk := by
  have hread := readLine_struct h
  have hlt : ¬ 64 ≤ name.length := Nat.not_le.mpr h.1.short
  exact next_line (fun _ _ => by rw [hread, Line.step, if_neg hlt]) (by rw [hread]; rfl) n rest

/-- An incomplete field line, or any field line outside a struct. -/
theorem skipped_line {line : CStr} {ty : Option TypeInfo}
    (h : IncompleteField line ∨ ty = none ∧ ∃ name type, FieldLine name type line)
    (hk : HeapKit.State) (n : Nat) (rest : List CStr) :
    dataLines e pid n (line :: rest) ty hk = dataLines e pid (n + 1) rest ty hk ∧
      registrations e pid n (line :: rest) ty hk = registrations e pid (n + 1) rest ty hk := by
  rcases h with h | ⟨rfl, name, type, h⟩
  · rcases readLine_incomplete h with hread | ⟨name, hname, hread⟩
    · exact next_line (fun _ _ => by rw [hread]; rfl) (by rw [hread]; rfl) n rest
    · have hlt : ¬ 64 ≤ name.length := Nat.not_le.mpr hname
      refine next_line (fun _ _ => ?_) (by rw [hread]; rfl) n rest
      rw [hread]
      cases ty with
      | none => rfl
      | some ty => simp only [Line.step, if_neg hlt]
  · have hread := readLine_field h
    exact next_line (fun _ _ => by rw [hread]; rfl) (by rw [hread]; rfl) n rest

/-- The type with the fields added. -/
def addFields (ty : TypeInfo) (fs : List (CStr × CStr)) : TypeInfo :=
  fs.foldl (fun ty f => addField ty f.1 f.2) ty

/-- The lines of a block add its fields. -/
theorem fields_run {lax : Bool} {body : List CStr} {fs : List (CStr × CStr)}
    (h : Fields lax body fs) (ty : TypeInfo) (ten : ty.fields.length + fs.length ≤ 10)
    (hk : HeapKit.State) (n : Nat) (rest : List CStr) :
    dataLines e pid n (body ++ rest) (some ty) hk =
        dataLines e pid (n + body.length) rest (some (addFields ty fs)) hk ∧
      registrations e pid n (body ++ rest) (some ty) hk =
        registrations e pid (n + body.length) rest (some (addFields ty fs)) hk := by
  induction h generalizing ty n with
  | nil => exact ⟨rfl, rfl⟩
  | @blank line lines fs h _ ih =>
    obtain ⟨h₁, h₂⟩ := @blank_line e pid line h (some ty) hk n (lines ++ rest)
    rw [List.cons_append, h₁, h₂, List.length_cons, Nat.add_comm lines.length 1, ← Nat.add_assoc]
    exact ih ty ten (n + 1)
  | @field name type line lines fs h _ ih =>
    rw [List.length_cons] at ten
    have hread := readLine_field h
    have hname : ¬ 64 ≤ name.length := Nat.not_le.mpr h.1.short
    have htype : ¬ (64 ≤ type.length ∨ 10 ≤ ty.fields.length) := by
      have := h.2.1.short
      omega
    obtain ⟨h₁, h₂⟩ := @next_line e pid line (some ty) (some (addField ty name type)) hk
      (fun _ _ => by rw [hread, Line.step]; simp only [if_neg hname, if_neg htype])
      (by rw [hread]; rfl) n (lines ++ rest)
    rw [List.cons_append, h₁, h₂, List.length_cons, Nat.add_comm lines.length 1, ← Nat.add_assoc]
    have hlen : (addField ty name type).fields.length = ty.fields.length + 1 := by simp [addField]
    exact ih (addField ty name type) (by omega) (n + 1)
  | @incomplete line lines fs _ h _ ih =>
    obtain ⟨h₁, h₂⟩ := @skipped_line e pid line (some ty) (.inl h) hk n (lines ++ rest)
    rw [List.cons_append, h₁, h₂, List.length_cons, Nat.add_comm lines.length 1, ← Nat.add_assoc]
    exact ih ty ten (n + 1)

/-- The type that a block declares: its name, its fields in order with the types that
`hk_parse_type` makes of their texts, one behind the other. -/
structure Declares (ti : TypeInfo) (t : CStr × List (CStr × CStr)) : Prop where
  name : ti.name = t.1
  fields : ti.fields.map (fun f => (f.name, f.type, f.typeName)) =
    t.2.map fun f => (f.1, hkParseType f.2)
  laid : ti.Laid

theorem addFields_declares (name : CStr) (fs : List (CStr × CStr)) :
    Declares (addFields ⟨name, 0, []⟩ fs) (name, fs) := by
  have go : ∀ (fs : List (CStr × CStr)) (ty : TypeInfo), ty.Laid →
      (addFields ty fs).name = ty.name ∧ (addFields ty fs).Laid ∧
        (addFields ty fs).fields.map (fun f => (f.name, f.type, f.typeName)) =
          ty.fields.map (fun f => (f.name, f.type, f.typeName)) ++
            fs.map fun f => (f.1, hkParseType f.2) := by
    intro fs
    induction fs with
    | nil => exact fun ty h => ⟨rfl, h, by simp [addFields]⟩
    | cons f fs ih =>
      intro ty h
      obtain ⟨h₁, h₂, h₃⟩ := ih (addField ty f.1 f.2) (addField_laid h f.1 f.2)
      exact ⟨h₁, h₂, h₃.trans (by simp [addField])⟩
  obtain ⟨h₁, h₂, h₃⟩ := go fs ⟨name, 0, []⟩ (laid_nil name)
  exact ⟨h₁, h₃, h₂⟩

/-- A registration that returns 0 adds the type with a zeroed instance. -/
theorem hkTypeRegister_zero {hk hk' : HeapKit.State} {ty : TypeInfo} {alloc : Bool}
    (h : hkTypeRegister hk pid (some ty) alloc = .ok (0, hk')) :
    hk' = { hk with registry := hk.registry ++ [some ⟨pid, ty, fun _ => 0⟩] } := by
  unfold hkTypeRegister at h
  simp only at h
  cases hf : findSlot pid ty.name hk.registry with
  | error f => simp only [hf, reduceCtorEq] at h
  | ok found =>
    cases found with
    | some p => simp only [hf] at h; cases h
    | none =>
      simp only [hf] at h
      split at h
      · cases h
      split at h
      · cases h
      · cases h
        rfl

/-- The registry with one type more. -/
def withType (pid : Nat) (hk : HeapKit.State) (ti : TypeInfo) : HeapKit.State :=
  { hk with registry := hk.registry ++ [some ⟨pid, ti, fun _ => 0⟩] }

/-- An `end` line registers the open type. -/
theorem end_line {line : CStr} (h : EndLine line) {ti : TypeInfo} {hk : HeapKit.State} {n : Nat}
    {rest : List CStr} (hreg : ∀ r ∈ registrations e pid n (line :: rest) (some ti) hk,
      ∃ hk', hkTypeRegister r.hk pid (some r.info) r.calloc = .ok (0, hk')) :
    dataLines e pid n (line :: rest) (some ti) hk =
        dataLines e pid (n + 1) rest none (withType pid hk ti) ∧
      ∀ r ∈ registrations e pid (n + 1) rest none (withType pid hk ti),
        r ∈ registrations e pid n (line :: rest) (some ti) hk := by
  have hread := readLine_end h
  have hfirst : ⟨hk, ti, e.instanceAlloc n⟩ ∈ registrations e pid n (line :: rest) (some ti) hk := by
    rw [registrations, hread]
    exact List.mem_cons_self
  obtain ⟨hk', hok⟩ := hreg _ hfirst
  have hstep : dataLine pid (e.structName n) (e.instanceAlloc n) line (some ti) hk =
      .next none (withType pid hk ti) := by
    rw [dataLine_eq, hread, withType, ← hkTypeRegister_zero hok]
    simp only [Line.step, hok, ne_eq, not_true_eq_false, if_false]
  constructor
  · simp only [dataLines, hstep]
  · intro r hr
    rw [registrations, hread]
    simp only [hstep]
    exact List.mem_cons_of_mem _ hr

/-- Before a line that begins no struct there is no open one. -/
theorem not_open {line : CStr} {lines : List CStr} {ty : Option TypeInfo}
    (hne : ∀ name, readLine line ≠ .struct (some name))
    (h : ty = none ∨ ∀ l ∈ (line :: lines).head?, ∃ name, StructLine name l) : ty = none := by
  rcases h with h | h
  · exact h
  · obtain ⟨name, hs⟩ := h line rfl
    exact absurd (readLine_struct hs) (hne name)

/-- **The text of a grammar.** Its blocks are registered in turn. -/
theorem text_run {lax : Bool} {lines : List CStr} {ts : List (CStr × List (CStr × CStr))}
    (h : Text lax lines ts) {ty : Option TypeInfo} (n : Nat) (hk : HeapKit.State)
    (hty : ty = none ∨ ∀ line ∈ lines.head?, ∃ name, StructLine name line)
    (hreg : ∀ r ∈ registrations e pid n lines ty hk,
      ∃ hk', hkTypeRegister r.hk pid (some r.info) r.calloc = .ok (0, hk')) :
    ∃ types, List.Forall₂ Declares types ts ∧ dataLines e pid n lines ty hk =
      some (0, { hk with registry := hk.registry ++ types.map fun ti => some ⟨pid, ti, fun _ => 0⟩ })
      := by
  induction h generalizing ty n hk with
  | nil => exact ⟨[], .nil, by simp [dataLines]⟩
  | @blank line lines ts h _ ih =>
    obtain rfl := not_open (fun name => by rw [readLine_blank h]; exact Line.noConfusion) hty
    obtain ⟨h₁, h₂⟩ := @blank_line e pid line h none hk n lines
    rw [h₂] at hreg
    rw [h₁]
    exact ih (n + 1) hk (.inl rfl) hreg
  | @block name first last body lines fs ts h hf ten close _ ih =>
    obtain ⟨h₁, h₂⟩ := @struct_line e pid name first h ty hk n (body ++ last :: lines)
    obtain ⟨h₃, h₄⟩ := @fields_run e pid lax body fs hf ⟨name, 0, []⟩
      (by rw [List.length_nil, Nat.zero_add]; exact ten) hk (n + 1) (last :: lines)
    rw [h₂, h₄] at hreg
    rw [h₁, h₃]
    obtain ⟨h₅, h₆⟩ := end_line close hreg
    obtain ⟨types, hall, hrun⟩ := ih _ _ (.inl rfl) fun r hr => hreg r (h₆ r hr)
    refine ⟨addFields ⟨name, 0, []⟩ fs :: types, .cons (addFields_declares name fs) hall, ?_⟩
    rw [h₅, hrun]
    simp [withType]
  | @stray line lines ts _ h _ ih =>
    have hne : ∀ name, readLine line ≠ .struct (some name) := by
      intro name hs
      rcases h with h | ⟨fname, type, h⟩
      · rcases readLine_incomplete h with hread | ⟨fname, -, hread⟩
        · rw [hread] at hs
          cases hs
        · rw [hread] at hs
          cases hs
      · rw [readLine_field h] at hs
        cases hs
    obtain rfl := not_open hne hty
    obtain ⟨h₁, h₂⟩ := @skipped_line e pid line none (h.imp_right fun h => ⟨rfl, h⟩) hk n lines
    rw [h₂] at hreg
    rw [h₁]
    exact ih (n + 1) hk (.inl rfl) hreg
  | @unterminated name first body lines fs ts _ h hf ten next _ ih =>
    obtain ⟨h₁, h₂⟩ := @struct_line e pid name first h ty hk n (body ++ lines)
    obtain ⟨h₃, h₄⟩ := @fields_run e pid lax body fs hf ⟨name, 0, []⟩
      (by rw [List.length_nil, Nat.zero_add]; exact ten) hk (n + 1) lines
    rw [h₂, h₄] at hreg
    rw [h₁, h₃]
    exact ih (n + 1 + body.length) hk (.inr next) hreg

end Run

/-- **`types.data`.** For every text whose lines are shorter than 255 bytes, whose names fit and in
which no struct has more than ten fields, and while registration succeeds: `plugin_data_set`
returns 0; and where the text is one of the grammar, or one but for incomplete field lines, field
lines outside a struct and structs without `end`, it registers the declared types in order, each
with its fields in order, and nothing else. -/
theorem types_data_read {e : Entry} {text : List Char} (pid : Nat) (hk : HeapKit.State)
    (htext : e.data = some text) (hlines : ∀ l ∈ textLines text, l.length < 255)
    (hnames : ∀ l ∈ textLines text, (readLine (chomp l)).NamesFit)
    (hfields : FieldsFit none ((textLines text).map fun l => readLine (chomp l)))
    (hreg : ∀ r ∈ registrations e pid 0 ((textLines text).map chomp) none hk,
      ∃ hk', hkTypeRegister r.hk pid (some r.info) r.calloc = .ok (0, hk')) :
    (∃ hk', pluginDataSet e pid hk = some (0, hk')) ∧
      ∀ lax ts, Text lax ((textLines text).map chomp) ts → ∃ types, List.Forall₂ Declares types ts ∧
        pluginDataSet e pid hk = some (0, { hk with
          registry := hk.registry ++ types.map fun ti => some ⟨pid, ti, fun _ => 0⟩ }) := by
  have hread : (fgetsLines 256 text).map chomp = (textLines text).map chomp :=
    fgetsLines_chomp fun l hl => Nat.succ_lt_succ (hlines l hl)
  have hset : pluginDataSet e pid hk = dataLines e pid 0 ((textLines text).map chomp) none hk := by
    unfold pluginDataSet
    rw [htext]
    simp only [hread]
  rw [hset]
  refine ⟨?_, fun lax ts h => text_run h 0 hk (.inl rfl) hreg⟩
  have hnames' : ∀ line ∈ (textLines text).map chomp, (readLine line).NamesFit := by
    intro line hl
    obtain ⟨l, hm, rfl⟩ := List.mem_map.mp hl
    exact hnames l hm
  rcases @dataLines_fits e pid ((textLines text).map chomp) 0 none hk hnames'
      (by rw [List.map_map]; exact hfields) with h | ⟨r, hr, hfail⟩
  · exact h
  · obtain ⟨hk', hok⟩ := hreg r hr
    exact absurd hok (hfail hk')

/-- A text of the grammar. -/
def oneStruct : List Char := "# a point\nstruct P\n  field x int # first\n\nend\n".toList

/-- It declares the struct `P` with the field `x`. -/
theorem types_data_read_oneStruct :
    ∃ ti hk', Declares ti (['P'], [(['x'], "int".toList)]) ∧
      pluginDataSet { pluginDir ['a'] true with data := some oneStruct } 1 noTypes = some (0, hk') ∧
      hk'.registry.length = 1 := by
  have hlines : (textLines oneStruct).map chomp = ["# a point".toList, "struct P".toList,
      "  field x int # first".toList, [], "end".toList] := by decide +kernel
  have hname : ∀ s ∈ ["P".toList, "x".toList, "int".toList], IsName s := by
    intro s hs
    simp only [List.mem_cons, List.not_mem_nil, or_false] at hs
    rcases hs with rfl | rfl | rfl <;> exact isName_of (by decide) (by decide) (by decide)
  have htext : Text false ((textLines oneStruct).map chomp) [(['P'], [(['x'], "int".toList)])] := by
    rw [hlines]
    have hfields : Fields false ["  field x int # first".toList, []] [(['x'], "int".toList)] :=
      .field ⟨hname _ (by simp), hname _ (by simp), by decide +kernel⟩
        (.blank (.inl (by decide)) .nil)
    exact .blank (.inr (by decide))
      (@Text.block _ _ "struct P".toList "end".toList _ _ _ _
        ⟨hname _ (by simp), [], by decide +kernel, by decide⟩ hfields (by decide)
        (by unfold EndLine; decide +kernel) .nil)
  have hreg : (registrations { pluginDir ['a'] true with data := some oneStruct } 1 0
      ((textLines oneStruct).map chomp) none noTypes).all (fun r =>
        match hkTypeRegister r.hk 1 (some r.info) r.calloc with
        | .ok (ret, _) => ret == 0
        | .error _ => false) = true := by decide +kernel
  have hok : ∀ r ∈ registrations { pluginDir ['a'] true with data := some oneStruct } 1 0
      ((textLines oneStruct).map chomp) none noTypes,
      ∃ hk', hkTypeRegister r.hk 1 (some r.info) r.calloc = .ok (0, hk') := by
    intro r hr
    have h := List.all_eq_true.mp hreg r hr
    split at h
    · rename_i ret hk' he
      exact ⟨hk', by rw [he, beq_iff_eq.mp h]⟩
    · cases h
  obtain ⟨types, hall, hrun⟩ := (@types_data_read
    { pluginDir ['a'] true with data := some oneStruct } oneStruct 1 noTypes rfl
    (by decide +kernel) (by decide +kernel) (by decide +kernel) hok).2 false _ htext
  cases hall with
  | cons hti hnil =>
    cases hnil
    exact ⟨_, _, hti, hrun, rfl⟩

/-- The first line of a text of the grammar. -/
theorem text_head {line : CStr} {lines : List CStr} {ts : List (CStr × List (CStr × CStr))}
    (h : Text false (line :: lines) ts) : BlankLine line ∨ ∃ name, StructLine name line := by
  generalize hl : line :: lines = ls at h
  cases h with
  | nil => cases hl
  | blank h =>
    cases hl
    exact .inl h
  | @block name _ _ _ _ _ _ h =>
    cases hl
    exact .inr ⟨name, h⟩
  | stray admitted => cases admitted
  | unterminated admitted => cases admitted

/-- A field outside a struct, an incomplete field and a struct without `end`. -/
def strayLines : List Char := "field x int\nstruct P\nfield y\n".toList

/-- **Nothing is rejected.** The text is not one of the grammar; `plugin_data_set` returns 0. -/
theorem types_data_not_rejected :
    (∃ hk', pluginDataSet { pluginDir ['a'] true with data := some strayLines } 1 noTypes =
        some (0, hk') ∧ hk'.registry.length = 0) ∧
      (∀ l ∈ textLines strayLines, l.length < 255) ∧
      (∀ l ∈ textLines strayLines, (readLine (chomp l)).NamesFit) ∧
      ¬ ∃ ts, Text false ((textLines strayLines).map chomp) ts := by
  refine ⟨?_, by decide +kernel, by decide +kernel, ?_⟩
  · have hrun : (pluginDataSet { pluginDir ['a'] true with data := some strayLines } 1 noTypes).any
        (fun p => p.1 == 0 && p.2.registry.length == 0) = true := by decide +kernel
    obtain ⟨⟨r, hk'⟩, he, h⟩ := Option.any_eq_true _ _ |>.mp hrun
    simp only [Bool.and_eq_true, beq_iff_eq] at h
    obtain ⟨rfl, h⟩ := h
    exact ⟨hk', he, h⟩
  · have hlines : (textLines strayLines).map chomp =
        ["field x int".toList, "struct P".toList, "field y".toList] := by decide +kernel
    rw [hlines]
    rintro ⟨ts, h⟩
    rcases text_head h with h | ⟨name, -, rest, hwords, -⟩
    · exact absurd h (by unfold BlankLine; decide)
    · have hfirst : (words "field x int".toList).head? = some "field".toList := by
        decide +kernel
      rw [hwords, List.head?_cons] at hfirst
      exact absurd hfirst (by decide)

end Plugin
end CoreCDTL
