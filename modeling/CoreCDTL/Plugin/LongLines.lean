import CoreCDTL.Lib.Lines
import CoreCDTL.Plugin.TypesBounds
import CoreCDTL.Plugin.TypesGrammar

/-!
# Long lines

`plugin_manifest_set` and `plugin_data_set` read their files into 256 bytes, so a longer line comes
to them in pieces of 255 characters.

* `keyValue`, `readLine`: what the two take of a line. `keyValue_take_eq_iff` and
  `readLine_take_eq_iff`: when they take the same of its first characters.
* `files_by_line_iff`: when what they do with a file is what they would do with its lines.
-/

namespace CoreCDTL
namespace Plugin

open HeapKit (TypeInfo hkTypeRegister)

/-! ## What is read of a line of `types.data` -/

/-- What a line says behind its blanks. -/
def readTrimmed (trimmed : CStr) : Line :=
  if "struct".toList.isPrefixOf trimmed then
    .struct ((scanWord trimmed.length (trimmed.drop 6)).map (·.1))
  else if "field".toList.isPrefixOf trimmed then
    match tokens blank (code trimmed) with
    | token :: name :: rest => if token ≠ "field".toList then .other else .field name rest.head?
    | _ => .other
  else if "end".toList.isPrefixOf trimmed then .close
  else .other

theorem readLine_eq (line : CStr) :
    readLine line =
      if line = [] ∨ line.head? = some '#' then .other else readTrimmed (line.dropWhile isspace) :=
  rfl

/-- Where the name in a field line ends. -/
def nameEnd (c name : CStr) : Nat := 5 + gap blank (c.drop 5) + name.length

/-- The number of characters up to the end of the last word that is read. -/
def Line.readTo (trimmed : CStr) : Line → Nat
  | .struct none => 6
  | .struct (some name) => 6 + gap isspace (trimmed.drop 6) + name.length
  | .field name none => nameEnd (code trimmed) name
  | .field name (some type) =>
    nameEnd (code trimmed) name + gap blank ((code trimmed).drop (nameEnd (code trimmed) name)) +
      type.length
  | .close => 3
  | .other => 0

/-- What is read of a field line without its comment. -/
def fieldWords (c : CStr) : Line :=
  if word blank c = some "field".toList then
    match word blank (c.drop 5) with
    | none => .other
    | some name => .field name (word blank (c.drop (nameEnd c name)))
  else .other

theorem tokens_head? (d : Char → Bool) (s : CStr) : (tokens d s).head? = word d s := by
  rw [tokens_eq_word]
  cases word d s <;> rfl

section Trimmed

variable {trimmed : CStr}

theorem readTrimmed_struct (h : "struct".toList <+: trimmed) :
    readTrimmed trimmed = .struct (word isspace (trimmed.drop 6)) := by
  unfold readTrimmed
  rw [if_pos (List.isPrefixOf_iff_prefix.mpr h),
    scanWord_word_eq (List.length_drop ▸ Nat.sub_le _ _)]

theorem readTrimmed_field (h : "field".toList <+: trimmed) :
    readTrimmed trimmed = fieldWords (code trimmed) := by
  have hgap : gap blank (code trimmed) = 0 := by
    obtain ⟨t, rfl⟩ := h
    rfl
  have hstruct : "struct".toList.isPrefixOf trimmed = false := by
    obtain ⟨t, rfl⟩ := h
    rfl
  unfold readTrimmed fieldWords
  rw [hstruct, if_neg Bool.false_ne_true, if_pos (List.isPrefixOf_iff_prefix.mpr h),
    tokens_eq_word blank (code trimmed), hgap]
  cases hfirst : word blank (code trimmed) with
  | none => rfl
  | some token =>
    simp only [Option.some.injEq, Nat.zero_add]
    rw [tokens_eq_word blank ((code trimmed).drop token.length)]
    by_cases htoken : token = "field".toList
    · subst htoken
      have h5 : "field".toList.length = 5 := rfl
      rw [if_pos rfl, h5]
      cases word blank ((code trimmed).drop 5) with
      | none => rfl
      | some name =>
        simp only [ne_eq, not_true_eq_false, if_false]
        rw [tokens_head?, List.drop_drop, nameEnd, Nat.add_assoc]
    · rw [if_neg htoken]
      cases word blank ((code trimmed).drop token.length) with
      | none => rfl
      | some name => exact if_pos htoken

theorem readTrimmed_end (h : "end".toList <+: trimmed) : readTrimmed trimmed = .close := by
  obtain ⟨t, rfl⟩ := h
  rfl

theorem readTrimmed_other (h₁ : ¬ "struct".toList <+: trimmed) (h₂ : ¬ "field".toList <+: trimmed)
    (h₃ : ¬ "end".toList <+: trimmed) : readTrimmed trimmed = .other := by
  unfold readTrimmed
  rw [if_neg (mt List.isPrefixOf_iff_prefix.mp h₁), if_neg (mt List.isPrefixOf_iff_prefix.mp h₂),
    if_neg (mt List.isPrefixOf_iff_prefix.mp h₃)]

/-- A part of a keyword is none. -/
theorem readTrimmed_short {k : CStr} {n : Nat} (h : k <+: trimmed) (hn : n < k.length)
    (hk : k = "struct".toList ∨ k = "field".toList ∨ k = "end".toList) :
    readTrimmed (trimmed.take n) = .other := by
  obtain ⟨t, rfl⟩ := h
  rw [List.take_append_of_le_length (Nat.le_of_lt hn)]
  have hparts : ∀ k ∈ ["struct".toList, "field".toList, "end".toList], ∀ n < k.length,
      readTrimmed (k.take n) = .other := by decide +kernel
  exact hparts k (by simpa using hk) n hn

/-- A field line is read at least up to its keyword. -/
theorem le_readTo_fieldWords (c : CStr) (h : fieldWords c ≠ .other) :
    5 ≤ (fieldWords c).readTo trimmed := by
  unfold fieldWords at h ⊢
  split at h
  · rename_i hfirst
    rw [if_pos hfirst]
    cases hname : word blank (c.drop 5) with
    | none => exact absurd (by rw [hname]) h
    | some name =>
      simp only
      cases word blank (c.drop (nameEnd c name)) <;> simp only [Line.readTo, nameEnd] <;> omega
  · exact absurd rfl h

/-- The name and the type of a field line that is cut. -/
theorem fieldWords_take_of_field {c name : CStr} {n : Nat} (hn : 5 ≤ n) (hc : c = code trimmed)
    (hfirst : word blank c = some "field".toList)
    (hfirst' : word blank (c.take n) = some "field".toList)
    (hname : word blank (c.drop 5) = some name) :
    fieldWords (c.take n) = fieldWords c ↔ (fieldWords c).readTo trimmed ≤ n := by
  have hwhole : fieldWords c = .field name (word blank (c.drop (nameEnd c name))) := by
    unfold fieldWords
    rw [if_pos hfirst, hname]
  have hto : (fieldWords c).readTo trimmed ≤ n ↔ nameEnd c name ≤ n ∧
      ∀ type ∈ word blank (c.drop (nameEnd c name)),
        gap blank (c.drop (nameEnd c name)) + type.length ≤ n - nameEnd c name := by
    rw [hwhole]
    cases word blank (c.drop (nameEnd c name)) with
    | none => simp [Line.readTo, hc]
    | some type =>
      simp only [Line.readTo, ← hc, Option.mem_some_iff, forall_eq']
      omega
  rw [hto, ← word_take_eq_iff, ← List.drop_take]
  by_cases hend : nameEnd c name ≤ n
  · -- The name ends in front of the cut, so only the type may be lost.
    have hname' : word blank ((c.take n).drop 5) = some name := by
      unfold nameEnd at hend
      rw [List.drop_take]
      exact word_take_of_le hname (by omega)
    have hend' : nameEnd (c.take n) name = nameEnd c name := by
      unfold nameEnd at hend ⊢
      rw [List.drop_take, gap_take, Nat.min_eq_right (by omega)]
    rw [hwhole, and_iff_right hend]
    unfold fieldWords
    rw [if_pos hfirst', hname']
    simp only [hend', Line.field.injEq, true_and]
  · refine iff_of_false (fun h => hend ?_) fun h => hend h.1
    rw [hwhole] at h
    unfold fieldWords at h
    rw [if_pos hfirst', List.drop_take] at h
    split at h
    · cases h
    · rename_i name' hname'
      obtain rfl : name' = name := (Line.field.inj h).1
      have hcut := word_take_eq_iff.mp (hname'.trans hname.symm) name' hname
      unfold nameEnd
      omega

/-- **A field line that is cut.** -/
theorem fieldWords_take_eq_iff {c : CStr} {n : Nat} (hn : 5 ≤ n) (hkey : "field".toList <+: c)
    (hc : c = code trimmed) :
    fieldWords (c.take n) = fieldWords c ↔ (fieldWords c).readTo trimmed ≤ n := by
  have hgap : gap blank c = 0 := by
    obtain ⟨t, ht⟩ := hkey
    rw [← ht]
    rfl
  have same : fieldWords (c.take n) = .other → fieldWords c = .other →
      (fieldWords (c.take n) = fieldWords c ↔ (fieldWords c).readTo trimmed ≤ n) := by
    intro h₁ h₂
    rw [h₁, h₂]
    exact iff_of_true rfl (Nat.zero_le n)
  by_cases hfirst : word blank c = some "field".toList
  · have hfirst' : word blank (c.take n) = some "field".toList :=
      word_take_of_le hfirst (by rw [hgap, Nat.zero_add]; exact hn)
    cases hname : word blank (c.drop 5) with
    | some name => exact fieldWords_take_of_field hn hc hfirst hfirst' hname
    | none =>
      refine same ?_ ?_
      · unfold fieldWords
        rw [if_pos hfirst', List.drop_take, word_take_of_none (n - 5) hname]
      · unfold fieldWords
        rw [if_pos hfirst, hname]
  · refine same ?_ (if_neg hfirst)
    by_cases hfirst' : word blank (c.take n) = some "field".toList
    · -- The first word is cut off behind the keyword, and nothing follows.
      have hn5 : 0 + 5 = n := hgap ▸ (word_take_cases hfirst').resolve_left hfirst
      have hnil : (c.take n).drop 5 = [] := by
        rw [List.drop_take, ← hn5, Nat.zero_add, Nat.sub_self, List.take_zero]
      unfold fieldWords
      rw [if_pos hfirst', hnil]
      rfl
    · exact if_neg hfirst'

/-- **What is cut off.** What stands behind its blanks is read in full from its first `n` characters
exactly when its last word ends there. -/
theorem readTrimmed_take_eq_iff {n : Nat} :
    readTrimmed (trimmed.take n) = readTrimmed trimmed ↔
      (readTrimmed trimmed).readTo trimmed ≤ n := by
  by_cases h₁ : "struct".toList <+: trimmed
  · by_cases hn : n < 6
    · rw [readTrimmed_short h₁ hn (.inl rfl), readTrimmed_struct h₁]
      refine iff_of_false (fun h => by cases h) fun h => ?_
      cases hw : word isspace (trimmed.drop 6) <;> rw [hw] at h <;> simp only [Line.readTo] at h <;>
        omega
    · have hle := Nat.le_of_not_lt hn
      rw [readTrimmed_struct (List.prefix_take_iff.mpr ⟨h₁, hle⟩), readTrimmed_struct h₁,
        Line.struct.injEq, List.drop_take, word_take_eq_iff]
      cases word isspace (trimmed.drop 6) with
      | none => simpa [Line.readTo] using hle
      | some name =>
        simp only [Option.mem_some_iff, forall_eq', Line.readTo]
        omega
  by_cases h₂ : "field".toList <+: trimmed
  · rw [readTrimmed_field h₂]
    have hcode : "field".toList <+: code trimmed := by
      obtain ⟨t, rfl⟩ := h₂
      exact ⟨code t, rfl⟩
    by_cases hn : n < 5
    · rw [readTrimmed_short h₂ hn (.inr (.inl rfl))]
      constructor
      · intro h
        rw [← h]
        exact Nat.zero_le n
      · intro h
        by_contra hne
        have := @le_readTo_fieldWords trimmed (code trimmed) (Ne.symm hne)
        omega
    · have hle := Nat.le_of_not_lt hn
      have hcut : code (trimmed.take n) = (code trimmed).take n := List.take_takeWhile.symm
      rw [readTrimmed_field (List.prefix_take_iff.mpr ⟨h₂, hle⟩), hcut]
      exact fieldWords_take_eq_iff hle hcode rfl
  by_cases h₃ : "end".toList <+: trimmed
  · rw [readTrimmed_end h₃]
    by_cases hn : n < 3
    · rw [readTrimmed_short h₃ hn (.inr (.inr rfl))]
      exact iff_of_false (fun h => by cases h) (Nat.not_le.mpr hn)
    · have hle := Nat.le_of_not_lt hn
      rw [readTrimmed_end (List.prefix_take_iff.mpr ⟨h₃, hle⟩)]
      exact iff_of_true rfl hle
  · have hcut : ∀ {k : CStr}, ¬ k <+: trimmed → ¬ k <+: trimmed.take n :=
      fun h hk => h (hk.trans (List.take_prefix n trimmed))
    rw [readTrimmed_other h₁ h₂ h₃, readTrimmed_other (hcut h₁) (hcut h₂) (hcut h₃)]
    exact iff_of_true rfl (Nat.zero_le n)

end Trimmed

/-- Where the part of a line ends that `plugin_data_set` reads. -/
def readLength (line : CStr) : Nat :=
  match readLine line with
  | .other => 0
  | l => gap isspace line + l.readTo (line.dropWhile isspace)

theorem readLength_le_iff (line : CStr) (n : Nat) :
    readLength line ≤ n ↔
      (readLine line).readTo (line.dropWhile isspace) ≤ n - gap isspace line := by
  unfold readLength
  cases readLine line with
  | other => exact iff_of_true (Nat.zero_le n) (Nat.zero_le _)
  | close =>
    simp only [Line.readTo]
    omega
  | struct name =>
    cases name <;> simp only [Line.readTo] <;> omega
  | field name type =>
    cases type <;> simp only [Line.readTo, nameEnd] <;> omega

/-- **A line that is cut.** -/
theorem readLine_take_eq_iff (line : CStr) (n : Nat) :
    readLine (line.take n) = readLine line ↔ readLength line ≤ n := by
  rw [readLength_le_iff, readLine_eq line]
  by_cases hskip : line = [] ∨ line.head? = some '#'
  · have hcut : line.take n = [] ∨ (line.take n).head? = some '#' := by
      rcases hskip with rfl | h
      · exact .inl List.take_nil
      · cases n with
        | zero => exact .inl rfl
        | succ n => exact .inr (by rw [List.head?_take, if_neg (Nat.succ_ne_zero n), h])
    rw [readLine_eq, if_pos hskip, if_pos hcut]
    exact iff_of_true rfl (Nat.zero_le _)
  rw [if_neg hskip, ← readTrimmed_take_eq_iff, ← dropWhile_take]
  cases n with
  | zero => rfl
  | succ n =>
    have hcut : ¬ (line.take (n + 1) = [] ∨ (line.take (n + 1)).head? = some '#') := by
      rw [List.head?_take, if_neg (Nat.succ_ne_zero n), List.take_eq_nil_iff]
      simpa using hskip
    rw [readLine_eq, if_neg hcut]

/-- What a line must say to change nothing. -/
def Line.Idle : Line → Prop
  | .other => True
  | .field name none => name.length < 64
  | _ => False

/-- A line changes nothing, wherever it stands, exactly when it is idle. -/
theorem dataLine_idle_iff (line : CStr) :
    (∀ pid structName alloc currentType hk,
        dataLine pid structName alloc line currentType hk = .next currentType hk) ↔
      (readLine line).Idle := by
  simp only [dataLine_eq]
  generalize readLine line = l
  constructor
  · intro h
    have hopen := Line.step_opens (h 0 [] false (some ⟨[], 0, []⟩) ⟨[], HeapKit.StrHeap.empty⟩)
    cases l with
    | struct name =>
      cases Line.step_opens (h 0 [] false none ⟨[], HeapKit.StrHeap.empty⟩)
    | field name type =>
      have hcount := hopen.fieldCount
      cases type with
      | some t => simp [fieldCount, Line.fieldsAfter] at hcount
      | none =>
        have hstep := h 0 [] false (some ⟨[], 0, []⟩) ⟨[], HeapKit.StrHeap.empty⟩
        simp only [Line.step] at hstep
        split at hstep
        · cases hstep
        · rename_i hlt
          exact Nat.lt_of_not_le hlt
    | close => cases hopen
    | other => trivial
  · intro hidle pid structName alloc currentType hk
    cases l with
    | struct name => cases hidle
    | field name type =>
      cases type with
      | some t => cases hidle
      | none =>
        cases currentType with
        | none => rfl
        | some ty => exact if_neg (Nat.not_le.mpr hidle)
    | close => cases hidle
    | other => rfl

/-! ## What is read of a line of the manifest -/

/-- What `plugin_manifest_set` takes of a line: a parameter, or a value of `info`. -/
inductive Directive where
  | param (key value : CStr)
  | info (key value : CStr)
  deriving DecidableEq, Repr

/-- The key of a value of `info`, behind its blanks. -/
def isInfoKey (key : CStr) : Bool :=
  strcaseEq key "Name".toList || strcaseEq key "Version".toList || strcaseEq key "Code".toList

/-- The tests of `plugin_manifest_set` on a line. -/
def directive (line : CStr) : Option Directive :=
  if line = [] ∨ line.head? = some '#' then none
  else if "--".toList.isPrefixOf line then
    (strchr '=' (line.drop 2)).map fun kv => .param kv.1 kv.2
  else
    ((strchr '=' line).filter fun kv => isInfoKey (kv.1.dropWhile (· = ' '))).map
      fun kv => .info kv.1 kv.2

/-- What `plugin_manifest_set` does with it. -/
def Directive.apply (alloc : Bool) (h : Handle) : Directive → Handle × Bool
  | .param key value => if alloc then (h.addParam key value, true) else (h, false)
  | .info key value => (h.setInfo key value, true)

theorem setInfo_of_not_isInfoKey (h : Handle) {key : CStr} (value : CStr)
    (hk : isInfoKey (key.dropWhile (· = ' ')) = false) : h.setInfo key value = h := by
  unfold isInfoKey at hk
  rw [Bool.or_eq_false_iff, Bool.or_eq_false_iff] at hk
  obtain ⟨⟨h₁, h₂⟩, h₃⟩ := hk
  unfold Handle.setInfo
  simp only [h₁, h₂, h₃, Bool.false_eq_true, if_false]

/-- **One line.** -/
theorem manifestLine_eq (alloc : Bool) (line : CStr) (h : Handle) :
    manifestLine alloc line h = (directive line).elim (h, true) (·.apply alloc h) := by
  unfold manifestLine directive
  split
  · rfl
  split
  · cases strchr '=' (line.drop 2) <;> rfl
  · cases strchr '=' line with
    | none => rfl
    | some kv =>
      cases hk : isInfoKey (kv.1.dropWhile (· = ' ')) with
      | true => simp [Option.filter, hk, Directive.apply]
      | false => simp [Option.filter, hk, setInfo_of_not_isInfoKey h kv.2 hk]

/-- A directive with more text behind it. -/
def Directive.append (t : CStr) : Directive → Directive
  | .param key value => .param key (value ++ t)
  | .info key value => .info key (value ++ t)

/-- The text behind a directive belongs to its value. -/
theorem directive_append {line : CStr} {d : Directive} (t : CStr) (h : directive line = some d) :
    directive (line ++ t) = some (d.append t) := by
  cases line with
  | nil => cases h
  | cons x line =>
    unfold directive at h ⊢
    by_cases hx : x = '#'
    · rw [hx, if_pos (.inr rfl)] at h
      cases h
    have hgo : ∀ l : CStr, ¬ (x :: l = [] ∨ (x :: l).head? = some '#') := fun l => by simpa using hx
    rw [if_neg (hgo line)] at h
    rw [List.cons_append, if_neg (hgo (line ++ t))]
    by_cases hd : "--".toList.isPrefixOf (x :: line) = true
    · rw [if_pos hd] at h
      cases line with
      | nil => simp at hd
      | cons y line =>
        have hd' : "--".toList.isPrefixOf (x :: (y :: line ++ t)) = true := hd
        obtain ⟨kv, hkv, rfl⟩ := Option.map_eq_some_iff.mp h
        have hcut : strchr '=' ((x :: (y :: line ++ t)).drop 2) = some (kv.1, kv.2 ++ t) :=
          strchr_concat t hkv
        rw [if_pos hd', hcut]
        rfl
    · rw [if_neg hd] at h
      obtain ⟨kv, hkv, rfl⟩ := Option.map_eq_some_iff.mp h
      obtain ⟨hkv, hkey⟩ := Option.filter_eq_some_iff.mp hkv
      have hcut : strchr '=' (x :: (line ++ t)) = some (kv.1, kv.2 ++ t) := strchr_concat t hkv
      have hd' : ¬ "--".toList.isPrefixOf (x :: (line ++ t)) = true := by
        cases line with
        | nil =>
          have hmem : '=' ∈ [x] := by
            rw [(strchr_eq_some hkv).1]
            exact List.mem_append_right _ List.mem_cons_self
          rw [← List.mem_singleton.mp hmem]
          exact Bool.false_ne_true
        | cons y line => exact hd
      rw [if_neg hd', hcut, Option.filter_some, if_pos hkey]
      rfl

/-- **A line that is cut.** The cut goes through the value. -/
theorem directive_take_eq_iff (line : CStr) (n : Nat) :
    directive (line.take n) = directive line ↔ directive line = none ∨ line.length ≤ n := by
  have hline : line.take n ++ line.drop n = line := List.take_append_drop n line
  cases hcut : directive (line.take n) with
  | none =>
    refine ⟨fun h => .inl h.symm, fun h => ?_⟩
    rcases h with h | h
    · exact h.symm
    · rw [← hcut, List.take_of_length_le h]
  | some d =>
    have hwhole := directive_append (line.drop n) hcut
    rw [hline] at hwhole
    rw [hwhole, Option.some.injEq]
    constructor
    · intro h
      have hnil : line.drop n = [] := by
        cases d with
        | param key value => simpa [Directive.append] using h
        | info key value => simpa [Directive.append] using h
      exact .inr (List.drop_eq_nil_iff.mp hnil)
    · intro h
      have hnil : line.drop n = [] :=
        List.drop_eq_nil_iff.mpr (h.resolve_left (Option.some_ne_none _))
      cases d with
      | param key value => simp [Directive.append, hnil]
      | info key value => simp [Directive.append, hnil]

theorem isInfoKey_of_directive {line key value : CStr}
    (h : directive line = some (.info key value)) :
    isInfoKey (key.dropWhile (· = ' ')) = true := by
  unfold directive at h
  split at h
  · cases h
  split at h
  · obtain ⟨kv, -, hkv⟩ := Option.map_eq_some_iff.mp h
    cases hkv
  · obtain ⟨kv, hkv, heq⟩ := Option.map_eq_some_iff.mp h
    cases heq
    exact (Option.filter_eq_some_iff.mp hkv).2

/-- A value of `info` is set in some handle. -/
theorem exists_setInfo_ne {key : CStr} (value : CStr)
    (hk : isInfoKey (key.dropWhile (· = ' ')) = true) : ∃ h : Handle, h.setInfo key value ≠ h := by
  have hkeys := hk
  unfold isInfoKey at hkeys
  rw [Bool.or_eq_true, Bool.or_eq_true] at hkeys
  unfold Handle.setInfo
  simp only
  by_cases h₁ : strcaseEq (key.dropWhile (· = ' ')) "Name".toList = true
  · refine ⟨Handle.zero, fun h => ?_⟩
    rw [if_pos h₁] at h
    cases congrArg (·.info.name) h
  by_cases h₂ : strcaseEq (key.dropWhile (· = ' ')) "Version".toList = true
  · refine ⟨Handle.zero, fun h => ?_⟩
    rw [if_neg h₁, if_pos h₂] at h
    cases congrArg (·.info.version) h
  · have h₃ := hkeys.resolve_left (not_or.mpr ⟨h₁, h₂⟩)
    refine ⟨{ Handle.zero with info.code := parseCode (value.dropWhile (· = ' ')) + 1 }, fun h => ?_⟩
    rw [if_neg h₁, if_neg h₂, if_pos h₃] at h
    have hcode := congrArg (·.info.code) h
    simp only at hcode
    omega

/-- A line changes nothing, wherever it stands, exactly when it is no directive. -/
theorem manifestLine_idle_iff (line : CStr) :
    (∀ alloc h, manifestLine alloc line h = (h, true)) ↔ directive line = none := by
  simp only [manifestLine_eq]
  constructor
  · intro hall
    cases hd : directive line with
    | none => rfl
    | some d =>
      simp only [hd] at hall
      cases d with
      | param key value => cases hall false Handle.zero
      | info key value =>
        obtain ⟨h, hne⟩ := exists_setInfo_ne value (isInfoKey_of_directive hd)
        exact absurd (congrArg Prod.fst (hall true h)) hne
  · intro hd alloc h
    rw [hd]
    rfl

/-! ## Files -/

/-- What is in front of the end of a cut line. -/
theorem chomp_take (line : List Char) (n : Nat) : chomp (line.take n) = (chomp line).take n := by
  unfold chomp cstr
  rw [← List.take_takeWhile, ← List.take_takeWhile]

/-- The steps of `plugin_manifest_set`. -/
def manifestStep (alloc : Nat → Bool) (n : Nat) (line : List Char) (h : Handle) :
    Round Handle (Handle × Bool) :=
  match manifestLine (alloc n) (chomp line) h with
  | (h', false) => .done (h', false)
  | (h', true) => .next h'

theorem manifestLines_eq (alloc : Nat → Bool) (lines : List (List Char)) (n : Nat) (h : Handle) :
    manifestLines alloc n (lines.map chomp) h =
      readLoop (manifestStep alloc) (·, true) n lines h := by
  induction lines generalizing n h with
  | nil => rfl
  | cons line rest ih =>
    rw [List.map_cons, manifestLines, readLoop, manifestStep]
    rcases manifestLine (alloc n) (chomp line) h with ⟨h', _ | _⟩
    · rfl
    · exact ih (n + 1) h'

/-- The steps of `plugin_data_set`. -/
def dataStep (e : Entry) (pid n : Nat) (line : List Char)
    (s : Option TypeInfo × HeapKit.State) :
    Round (Option TypeInfo × HeapKit.State) (Option (Int × HeapKit.State)) :=
  match dataLine pid (e.structName n) (e.instanceAlloc n) (chomp line) s.1 s.2 with
  | .fault => .done none
  | .failed hk' => .done (some (1, hk'))
  | .next currentType' hk' => .next (currentType', hk')

theorem dataLines_eq (e : Entry) (pid : Nat) (lines : List (List Char)) (n : Nat)
    (currentType : Option TypeInfo) (hk : HeapKit.State) :
    dataLines e pid n (lines.map chomp) currentType hk =
      readLoop (dataStep e pid) (fun s => some (0, s.2)) n lines (currentType, hk) := by
  induction lines generalizing n currentType hk with
  | nil => rfl
  | cons line rest ih =>
    rw [List.map_cons, dataLines, readLoop, dataStep]
    cases dataLine pid (e.structName n) (e.instanceAlloc n) (chomp line) currentType hk with
    | fault => rfl
    | failed hk' => rfl
    | next ty hk' => exact ih (n + 1) ty hk'

/-- An entry for which the outcomes of the `i`-th step are those of the `f i`-th. -/
def Entry.renumber (f : Nat → Nat) (e : Entry) : Entry :=
  { e with
    paramAlloc := fun i => e.paramAlloc (f i)
    structName := fun i => e.structName (f i)
    instanceAlloc := fun i => e.instanceAlloc (f i) }

/-- `plugin_manifest_set` for a text that is split at its newlines. The outcomes of a line are those
of its first piece. -/
def manifestByLine (e : Entry) (text : List Char) (currentId : Nat) (h : Handle) :
    Int × Handle × Nat :=
  let lines := textLines text
  match manifestLines (e.renumber (firstRead 255 lines)).paramAlloc 0 (lines.map chomp) h with
  | (h', false) => (-1, h', currentId)
  | (h', true) => (0, { h' with info.id := currentId }, (currentId + 1) % 2 ^ 32)

/-- `plugin_data_set` for a text that is split at its newlines. -/
def typesByLine (e : Entry) (text : List Char) (pid : Nat) (hk : HeapKit.State) :
    Option (Int × HeapKit.State) :=
  let lines := textLines text
  dataLines (e.renumber (firstRead 255 lines)) pid 0 (lines.map chomp) none hk

/-- The manifest is read line by line: the result is that of the lines, the later pieces of a line
change nothing, and its first piece gives what the line gives. -/
structure ManifestByLine (text : List Char) : Prop where
  result : ∀ e currentId h, e.manifest = some text →
    pluginManifestSet e currentId h = manifestByLine e text currentId h
  tails : ∀ line ∈ textLines text, ∀ k, 1 ≤ k → ∀ alloc h,
    manifestLine alloc (chomp (piece 255 line k)) h = (h, true)
  values : ∀ line ∈ textLines text, directive (chomp (line.take 255)) = directive (chomp line)

/-- The same of `types.data`. -/
structure TypesByLine (text : List Char) : Prop where
  result : ∀ e pid hk, e.data = some text → pluginDataSet e pid hk = typesByLine e text pid hk
  tails : ∀ line ∈ textLines text, ∀ k, 1 ≤ k → ∀ pid structName alloc currentType hk,
    dataLine pid structName alloc (chomp (piece 255 line k)) currentType hk = .next currentType hk
  values : ∀ line ∈ textLines text, readLine (chomp (line.take 255)) = readLine (chomp line)

theorem manifestByLine_result {text : List Char}
    (tails : ∀ line ∈ textLines text, ∀ k, 1 ≤ k → ∀ alloc h,
      manifestLine alloc (chomp (piece 255 line k)) h = (h, true))
    (values : ∀ line ∈ textLines text, directive (chomp (line.take 255)) = directive (chomp line))
    {e : Entry} (currentId : Nat) (h : Handle) (htext : e.manifest = some text) :
    pluginManifestSet e currentId h = manifestByLine e text currentId h := by
  have hread := @readLoop_fgets _ _ (manifestStep e.paramAlloc) (·, true) 255 (by decide)
    (fun n line s => by rw [manifestStep, chomp_newline]; rfl) text 0 h
    (fun line hl n s => by rw [manifestStep, manifestStep, manifestLine_eq, manifestLine_eq,
      values line hl])
    (fun line hl k hk n s => by rw [manifestStep, tails line hl k hk])
  unfold pluginManifestSet manifestByLine
  rw [htext]
  simp only [manifestLines_eq]
  rw [hread]
  simp only [Nat.zero_add]
  rfl

theorem typesByLine_result {text : List Char}
    (tails : ∀ line ∈ textLines text, ∀ k, 1 ≤ k → ∀ pid structName alloc currentType hk,
      dataLine pid structName alloc (chomp (piece 255 line k)) currentType hk =
        .next currentType hk)
    (values : ∀ line ∈ textLines text, readLine (chomp (line.take 255)) = readLine (chomp line))
    {e : Entry} (pid : Nat) (hk : HeapKit.State) (htext : e.data = some text) :
    pluginDataSet e pid hk = typesByLine e text pid hk := by
  have hread := @readLoop_fgets _ _ (dataStep e pid) (fun s => some (0, s.2)) 255 (by decide)
    (fun n line s => by rw [dataStep, chomp_newline]; rfl) text 0 (none, hk)
    (fun line hl n s => by rw [dataStep, dataStep, dataLine_eq, dataLine_eq, values line hl])
    (fun line hl k hk n s => by rw [dataStep, tails line hl k hk])
  unfold pluginDataSet typesByLine
  rw [htext]
  simp only [dataLines_eq]
  rw [hread]
  simp only [Nat.zero_add]
  rfl

/-- **When files are read line by line.** For every text: `plugin_manifest_set` does with it what it
would do with its lines, and takes nothing of the later pieces of a line and no value that is cut,
if and only if each line that is a directive has at most 255 characters in front of its end and no
later piece of a line is a directive. `plugin_data_set` does so if and only if of each line the
keyword and the words that are read end within 255 characters, and all later pieces are idle. -/
theorem files_by_line_iff (manifest types : List Char) :
    (ManifestByLine manifest ↔ ∀ line ∈ textLines manifest,
      (directive (chomp line) = none ∨ (chomp line).length ≤ 255) ∧
        ∀ k, 1 ≤ k → directive (chomp (piece 255 line k)) = none) ∧
    (TypesByLine types ↔ ∀ line ∈ textLines types, readLength (chomp line) ≤ 255 ∧
      ∀ k, 1 ≤ k → (readLine (chomp (piece 255 line k))).Idle) := by
  refine ⟨⟨fun h line hl => ⟨?_, fun k hk => ?_⟩, fun h => ?_⟩,
    fun h line hl => ⟨?_, fun k hk => ?_⟩, fun h => ?_⟩
  · rw [← directive_take_eq_iff, ← chomp_take]
    exact h.values line hl
  · exact (manifestLine_idle_iff _).mp (h.tails line hl k hk)
  · have tails := fun line hl k hk => (manifestLine_idle_iff _).mpr ((h line hl).2 k hk)
    have values : ∀ line ∈ textLines manifest,
        directive (chomp (line.take 255)) = directive (chomp line) := fun line hl => by
      rw [chomp_take, directive_take_eq_iff]
      exact (h line hl).1
    exact ⟨fun e id k => manifestByLine_result tails values id k, tails, values⟩
  · rw [← readLine_take_eq_iff, ← chomp_take]
    exact h.values line hl
  · exact (dataLine_idle_iff _).mp (h.tails line hl k hk)
  · have tails := fun line hl k hk => (dataLine_idle_iff _).mpr ((h line hl).2 k hk)
    have values : ∀ line ∈ textLines types,
        readLine (chomp (line.take 255)) = readLine (chomp line) := fun line hl => by
      rw [chomp_take, readLine_take_eq_iff]
      exact (h line hl).1
    exact ⟨fun e pid hk => typesByLine_result tails values pid hk, tails, values⟩

/-- A comment of 261 characters, with `Name=b` at its end. -/
def commentWithName : List Char := "#".toList ++ List.replicate 254 '-' ++ "Name=b\n".toList

/-- A comment with a field at its end. -/
def commentWithField : List Char :=
  "struct P\n#".toList ++ List.replicate 254 '-' ++ "field x int\nend\n".toList

/-- **Two comments that are read.** One sets the name of the plugin, the other adds a field. -/
theorem comments_read : ¬ ManifestByLine commentWithName ∧ ¬ TypesByLine commentWithField := by
  constructor
  · intro h
    have hname := congrArg (·.2.1.info.name)
      (h.result { pluginDir ['a'] true with manifest := some commentWithName } 1 Handle.zero rfl)
    exact absurd hname (by decide +kernel)
  · intro h
    have htypes := congrArg (Option.map fun p => p.2.registry.map
        (Option.map fun r => r.typeInfo.fields.length))
      (h.result { pluginDir ['a'] true with data := some commentWithField } 1 noTypes rfl)
    exact absurd htypes (by decide +kernel)

end Plugin
end CoreCDTL
