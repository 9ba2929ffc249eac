import CoreCDTL.HeapKit.RoundTrip

/-!
# HeapKit: what `hk_deserialize` makes of any text

A text is a list of assignments: each `;`-token with a `=` whose key is the name of a field assigns
its value text to the first such field (`assigned`, `assignedIn`). `hk_deserialize` performs the
assignments of the first 1023 characters.

* `storeAll_value`: a field ends with the value of its last assignment, or keeps its own.
* `named_of_take`: the fields that a cut-off text assigns to are named in the whole text.
* `hk_deserialize_frame`: nothing else is touched, and a second call changes no value.
* `hk_deserialize_applies_iff`: when each field ends with the value of its last record in the whole
  text.
-/

namespace CoreCDTL
namespace HeapKit

/-! ## Assignments -/

/-- What a token assigns: the first field with the name in front of its `=`, and the text behind
it. -/
def assigned (fields : List FieldInfo) (token : CStr) : Option (FieldInfo × CStr) :=
  (strchr '=' token).bind fun p => (fields.find? fun f => f.name = p.1).map fun f => (f, p.2)

/-- The assignments of a text, in order. -/
def assignedIn (fields : List FieldInfo) (text : CStr) : List (FieldInfo × CStr) :=
  (tokens (· = ';') text).filterMap (assigned fields)

/-- The value text of the last assignment to a field. -/
def lastValue (f : FieldInfo) : List (FieldInfo × CStr) → Option CStr
  | [] => none
  | p :: l =>
    match lastValue f l with
    | some v => some v
    | none => if p.1 = f then some p.2 else none

/-- The field is the first one with the name of a key in the text. -/
def Named (fields : List FieldInfo) (text : CStr) (f : FieldInfo) : Prop :=
  ∃ token ∈ tokens (· = ';') text, ∃ key val, strchr '=' token = some (key, val) ∧
    (fields.find? fun g => g.name = key) = some f

section Assignments

variable {fields : List FieldInfo}

theorem assigned_eq_some {token : CStr} {f : FieldInfo} {v : CStr} :
    assigned fields token = some (f, v) ↔ ∃ key, strchr '=' token = some (key, v) ∧
      (fields.find? fun g => g.name = key) = some f := by
  unfold assigned
  simp only [Option.bind_eq_some_iff, Option.map_eq_some_iff, Prod.mk.injEq, Prod.exists]
  constructor
  · rintro ⟨key, val, hkey, g, hg, rfl, rfl⟩
    exact ⟨key, hkey, hg⟩
  · rintro ⟨key, hkey, hg⟩
    exact ⟨key, v, hkey, f, hg, rfl, rfl⟩

theorem mem_assignedIn {text : CStr} {f : FieldInfo} {v : CStr} :
    (f, v) ∈ assignedIn fields text ↔ ∃ token ∈ tokens (· = ';') text,
      ∃ key, strchr '=' token = some (key, v) ∧ (fields.find? fun g => g.name = key) = some f := by
  unfold assignedIn
  simp only [List.mem_filterMap, assigned_eq_some]

theorem field_of_assignedIn {text : CStr} {p : FieldInfo × CStr} (h : p ∈ assignedIn fields text) :
    p.1 ∈ fields := by
  obtain ⟨token, -, key, -, hfind⟩ := mem_assignedIn.mp h
  exact List.mem_of_find?_eq_some hfind

/-- The two parts are of the text. -/
theorem mem_of_strchr {c : Char} {s a b : CStr} (h : strchr c s = some (a, b)) {x : Char}
    (hx : x ∈ b) : x ∈ s := by
  unfold strchr at h
  split at h
  · cases h
    exact (List.dropWhile_suffix _).mem (List.mem_of_mem_drop hx)
  · cases h

theorem nul_not_mem_assignedIn {text : CStr} (ht : nul ∉ text) {p : FieldInfo × CStr}
    (h : p ∈ assignedIn fields text) : nul ∉ p.2 := by
  obtain ⟨token, htoken, key, hkey, -⟩ := mem_assignedIn.mp h
  exact fun hn => ht (mem_of_mem_tokens htoken (mem_of_strchr hkey hn))

theorem assignedIn_length_le (text : CStr) :
    (assignedIn fields text).length ≤ text.length :=
  Nat.le_trans (List.length_filterMap_le _ _) (tokens_length_le _ _)

/-- The `=` of a text that is cut off behind it. -/
theorem strchr_of_isPrefix {c : Char} {w s a b : CStr} (hw : w <+: s)
    (h : strchr c w = some (a, b)) : ∃ b', strchr c s = some (a, b') := by
  obtain ⟨r, rfl⟩ := hw
  exact ⟨b ++ r, strchr_concat r h⟩

/-- **Keys of a text that is cut off.** What it assigns to is named in the whole text. -/
theorem named_of_take {data : CStr} {n : Nat} {p : FieldInfo × CStr}
    (h : p ∈ assignedIn fields (data.take n)) : Named fields data p.1 := by
  obtain ⟨token, htoken, key, hkey, hfind⟩ := mem_assignedIn.mp h
  obtain ⟨ts, us, htokens, hcut⟩ := tokens_take (· = ';') data n
  rcases hcut with hcut | ⟨w, tok, rest, rfl, hcut, hpre⟩
  · refine ⟨token, ?_, key, p.2, hkey, hfind⟩
    rw [htokens]
    exact List.mem_append_left _ (hcut ▸ htoken)
  · rw [hcut] at htoken
    rcases List.mem_append.mp htoken with htoken | htoken
    · refine ⟨token, ?_, key, p.2, hkey, hfind⟩
      rw [htokens]
      exact List.mem_append_left _ htoken
    · -- The last token, of which the value may be cut off.
      rw [List.mem_singleton] at htoken
      subst htoken
      obtain ⟨val, hval⟩ := strchr_of_isPrefix hpre hkey
      refine ⟨tok, ?_, key, val, hval, hfind⟩
      rw [htokens]
      exact List.mem_append_right _ List.mem_cons_self

end Assignments

/-! ## The stores -/

section Stores

variable {io : FloatText} {fields : List FieldInfo}

/-- **The value of a field after the stores**: that of its last assignment, or its own. -/
theorem storeAll_value {f : FieldInfo} {l : List (FieldInfo × CStr)} {s : Mem × StrHeap}
    (hl : ∀ p ∈ l, p.1 = f ∨ p.1.Apart f) (hn : ∀ p ∈ l, nul ∉ p.2)
    (hf : StringValid s.2 s.1 f) (hroom : s.2.brk + l.length ≤ 2 ^ 64) :
    readField (storeAll io l s).2 (storeAll io l s).1 f =
        (lastValue f l).elim (readField s.2 s.1 f) (decodeValue io f.type) ∧
      StringValid (storeAll io l s).2 (storeAll io l s).1 f ∧
      (storeAll io l s).2.brk ≤ s.2.brk + l.length := by
  induction l generalizing s with
  | nil => exact ⟨rfl, hf, Nat.le_refl _⟩
  | cons p l ih =>
    have hbrk := (@storeField_frame io p.1 p.2 s).2.2.1
    rw [List.length_cons] at hroom ⊢
    have hfree : s.2.brk < 2 ^ 64 := by omega
    have hleft : (storeField io p.1 p.2 s).2.brk + l.length ≤ 2 ^ 64 := by omega
    have hstep : readField (storeField io p.1 p.2 s).2 (storeField io p.1 p.2 s).1 f =
        (if p.1 = f then decodeValue io f.type p.2 else readField s.2 s.1 f) ∧
        StringValid (storeField io p.1 p.2 s).2 (storeField io p.1 p.2 s).1 f := by
      by_cases hp : p.1 = f
      · rw [if_pos hp, hp]
        exact readField_storeField io (hn p List.mem_cons_self) hfree
      · rw [if_neg hp]
        exact storeField_other io ((hl p List.mem_cons_self).resolve_left hp) hf
    obtain ⟨hread, hvalid, hle⟩ := ih (fun q hq => hl q (List.mem_cons_of_mem _ hq))
      (fun q hq => hn q (List.mem_cons_of_mem _ hq)) hstep.2 hleft
    rw [storeAll_cons]
    refine ⟨?_, hvalid, by omega⟩
    rw [hread, hstep.1, lastValue]
    cases lastValue f l with
    | some v => simp only [Option.elim_some]
    | none =>
      by_cases hp : p.1 = f
      · simp only [if_pos hp, Option.elim_none, Option.elim_some]
      · simp only [if_neg hp, Option.elim_none]

/-- The types for which the `switch` stores nothing. -/
theorem storeField_skipped {f : FieldInfo} (hf : f.type ∈ [FieldType.struct, .ptr, .unknown])
    (w : CStr) (s : Mem × StrHeap) : storeField io f w s = s := by
  unfold storeField
  simp only [List.mem_cons, List.not_mem_nil, or_false] at hf
  rcases hf with hf | hf | hf <;> rw [hf]

/-- The bytes that the stores leave: those of fields without an assignment and of struct and ptr
fields. -/
theorem storeAll_byte {l : List (FieldInfo × CStr)} {s : Mem × StrHeap} {k : Nat}
    (h : ∀ p ∈ l, p.1.Occupies k → p.1.type ∈ [FieldType.struct, .ptr, .unknown]) :
    (storeAll io l s).1 k = s.1 k := by
  induction l generalizing s with
  | nil => rfl
  | cons p l ih =>
    rw [storeAll_cons, ih fun q hq => h q (List.mem_cons_of_mem _ hq)]
    by_cases hp : p.1.Occupies k
    · rw [storeField_skipped (h p List.mem_cons_self hp)]
    · exact (storeField_frame io).1 k hp

/-- The token loop performs the assignments of the text. -/
theorem foldl_applyToken_assigned (ts : List CStr) (s : Mem × StrHeap) :
    ts.foldl (applyToken io fields) s = storeAll io (ts.filterMap (assigned fields)) s := by
  induction ts generalizing s with
  | nil => rfl
  | cons token ts ih =>
    rw [List.foldl_cons, ih, List.filterMap_cons]
    unfold applyToken assigned
    cases strchr '=' token with
    | none => rfl
    | some p =>
      simp only [Option.bind_some]
      cases fields.find? fun f => f.name = p.1 <;> rfl

variable (io)

/-- The instance of a type and the strings after `hk_deserialize` of a text. -/
def deserialized (st : State) (reg : RegisteredType) (data : CStr) : Mem × StrHeap :=
  storeAll io (assignedIn reg.typeInfo.fields (data.take 1023)) (reg.dInstance, st.strs)

/-- **`hk_deserialize`** of a registered type. -/
theorem hkDeserialize_eq {st : State} {pid i : Nat} {tn : CStr} {reg : RegisteredType}
    (hfind : findRegistered st pid tn = .ok (some (i, reg))) (data : CStr) :
    hkDeserialize io st pid tn (some data) =
      .ok (0, ⟨st.registry.set i (some { reg with dInstance := (deserialized io st reg data).1 }),
        (deserialized io st reg data).2⟩) := by
  unfold hkDeserialize deserialized assignedIn
  rw [hfind]
  simp only [foldl_applyToken_assigned]
  rfl

end Stores

/-! ## What is not named is not touched -/

/-- After `hk_deserialize` of a text into the type in slot `i`, which left the instance `m`. -/
structure ModifiesOnlyNamed (st st' : State) (i : Nat) (reg : RegisteredType) (m : Mem)
    (data : CStr) : Prop where
  /-- The other registered instances are the same, and so are the strings they point to. -/
  slots : ∀ j, j ≠ i → st'.registry[j]? = st.registry[j]?
  strings : ∀ a, a < st.strs.brk → st'.strs.text a = st.strs.text a
  /-- Nothing is written behind the instance. -/
  outside : ∀ k, reg.typeInfo.size ≤ k → m k = reg.dInstance k
  /-- The fields that no token names keep their bytes and their values. -/
  bytes : ∀ f ∈ reg.typeInfo.fields, ¬ Named reg.typeInfo.fields data f →
    ∀ k, f.Occupies k → m k = reg.dInstance k
  values : ∀ f ∈ reg.typeInfo.fields, ¬ Named reg.typeInfo.fields data f →
    StringValid st.strs reg.dInstance f →
      readField st'.strs m f = readField st.strs reg.dInstance f
  /-- Struct and ptr fields keep their bytes, named or not. -/
  skipped : ∀ f ∈ reg.typeInfo.fields, f.type ∈ [FieldType.struct, .ptr] →
    ∀ k, f.Occupies k → m k = reg.dInstance k

section Call

variable {io : FloatText} {st : State} {pid i : Nat} {tn data : CStr} {reg : RegisteredType}
  (hfind : findRegistered st pid tn = .ok (some (i, reg)))
  (hapart : reg.typeInfo.fields.Pairwise FieldInfo.Apart)

include hapart in
/-- An assignment is to the field or to one apart from it. -/
theorem assignedIn_apart {f : FieldInfo} (hf : f ∈ reg.typeInfo.fields) (n : Nat) :
    ∀ p ∈ assignedIn reg.typeInfo.fields (data.take n), p.1 = f ∨ p.1.Apart f := by
  intro p hp
  by_cases hpf : p.1 = f
  · exact .inl hpf
  · exact .inr (hapart.forall (field_of_assignedIn hp) hf hpf)

include hapart in
/-- The bytes of a field that the call leaves. -/
theorem deserialized_byte {f : FieldInfo} (hf : f ∈ reg.typeInfo.fields)
    (h : ¬ Named reg.typeInfo.fields data f ∨ f.type ∈ [FieldType.struct, .ptr]) {k : Nat}
    (hk : f.Occupies k) : (deserialized io st reg data).1 k = reg.dInstance k := by
  apply storeAll_byte
  intro p hp hocc
  rcases assignedIn_apart hapart hf 1023 p hp with rfl | hpf
  · rcases h with h | h
    · exact absurd (named_of_take hp) h
    · exact List.mem_of_mem_take (i := 2) h
  · exact absurd hk (hpf k hocc)

theorem assignedIn_take_length (n : Nat) :
    (assignedIn reg.typeInfo.fields (data.take n)).length ≤ n :=
  Nat.le_trans (assignedIn_length_le _) (List.length_take_le _ _)

include hapart in
/-- The value of a field after the call. -/
theorem deserialized_value (hdata : nul ∉ data) {f : FieldInfo} (hf : f ∈ reg.typeInfo.fields)
    (hvalid : StringValid st.strs reg.dInstance f) (hroom : st.strs.brk + 1023 ≤ 2 ^ 64) :
    readField (deserialized io st reg data).2 (deserialized io st reg data).1 f =
        (lastValue f (assignedIn reg.typeInfo.fields (data.take 1023))).elim
          (readField st.strs reg.dInstance f) (decodeValue io f.type) ∧
      StringValid (deserialized io st reg data).2 (deserialized io st reg data).1 f ∧
      (deserialized io st reg data).2.brk ≤ st.strs.brk + 1023 := by
  have hlen := @assignedIn_take_length data reg 1023
  have hcut : nul ∉ data.take 1023 := fun hn => hdata (List.mem_of_mem_take hn)
  have hleft : st.strs.brk + (assignedIn reg.typeInfo.fields (data.take 1023)).length ≤ 2 ^ 64 := by
    omega
  obtain ⟨hread, hkeeps, hle⟩ := @storeAll_value io f _ (reg.dInstance, st.strs)
    (assignedIn_apart hapart hf 1023) (fun p hp => nul_not_mem_assignedIn hcut hp) hvalid hleft
  exact ⟨hread, hkeeps, Nat.le_trans hle (Nat.add_le_add_left hlen _)⟩

include hfind hapart in
/-- **`hk_deserialize` touches only what the text names, and is idempotent.** Whatever the text, a
call returns 0 and leaves the other instances, the fields that no token names, and the struct and
ptr fields. A second call with the text leaves every field value as after the first. The string
fields of the instance point to strings, and for the second call `strdup` finds an address for each
string of both. -/
theorem hk_deserialize_frame
    (hrange : ∀ f ∈ reg.typeInfo.fields, f.offset + f.span ≤ reg.typeInfo.size)
    (hdata : nul ∉ data) :
    ∃ st' m, hkDeserialize io st pid tn (some data) = .ok (0, st') ∧
      findRegistered st' pid tn = .ok (some (i, { reg with dInstance := m })) ∧
      ModifiesOnlyNamed st st' i reg m data ∧
      ((∀ f ∈ reg.typeInfo.fields, StringValid st.strs reg.dInstance f) →
        st.strs.brk + 2 * 1023 ≤ 2 ^ 64 →
        ∃ st'' m', hkDeserialize io st' pid tn (some data) = .ok (0, st'') ∧
          findRegistered st'' pid tn = .ok (some (i, { reg with dInstance := m' })) ∧
          ∀ f ∈ reg.typeInfo.fields, readField st''.strs m' f = readField st'.strs m f) := by
  obtain ⟨d, hd⟩ : ∃ d, d = deserialized io st reg data := ⟨_, rfl⟩
  have hcall := hkDeserialize_eq io hfind data
  rw [← hd] at hcall
  have hbyte : ∀ f ∈ reg.typeInfo.fields,
      (¬ Named reg.typeInfo.fields data f ∨ f.type ∈ [FieldType.struct, .ptr]) →
        ∀ k, f.Occupies k → d.1 k = reg.dInstance k := by
    intro f hf h k hk
    rw [hd]
    exact deserialized_byte hapart hf h hk
  obtain ⟨hsame, -, htext⟩ := @storeAll_frame io
    (assignedIn reg.typeInfo.fields (data.take 1023)) (reg.dInstance, st.strs)
  have hd' : storeAll io (assignedIn reg.typeInfo.fields (data.take 1023))
      (reg.dInstance, st.strs) = d := hd.symm
  rw [hd'] at hsame htext
  have hfind' : findRegistered ⟨st.registry.set i (some { reg with dInstance := d.1 }), d.2⟩ pid tn =
      .ok (some (i, { reg with dInstance := d.1 })) := findSlot_set hfind rfl rfl
  refine ⟨_, d.1, hcall, hfind', ?_, fun hvalid hroom => ?_⟩
  · constructor
    case slots => exact fun j hj => List.getElem?_set_ne (Ne.symm hj)
    case strings => exact htext
    case outside =>
      intro k hk
      refine hsame k fun p hp hocc => ?_
      have := hrange p.1 (field_of_assignedIn hp)
      unfold FieldInfo.Occupies at hocc
      omega
    case bytes => exact fun f hf hnot => hbyte f hf (.inl hnot)
    case values =>
      intro f hf hnot hvalid
      refine readField_congr (fun n hn => Mem.read_congr fun k h₁ h₂ => ?_)
        fun ht => htext _ (hvalid ht)
      exact hbyte f hf (.inl hnot) k ⟨h₁, by omega⟩
    case skipped => exact fun f hf ht => hbyte f hf (.inr ht)
  · refine ⟨_, _, hkDeserialize_eq io hfind' data, findSlot_set hfind' rfl rfl, fun f hf => ?_⟩
    obtain ⟨hread, hkeeps, hle⟩ := @deserialized_value io st data reg hapart hdata f hf (hvalid f hf)
      (by omega)
    rw [← hd] at hread hkeeps hle
    have hagain := (@deserialized_value io
      ⟨st.registry.set i (some { reg with dInstance := d.1 }), d.2⟩ data
      { reg with dInstance := d.1 } hapart hdata f hf hkeeps (by simp only; omega)).1
    rw [hagain]
    -- The second call assigns the same values to the same fields.
    cases hlast : lastValue f (assignedIn reg.typeInfo.fields (data.take 1023)) with
    | none => simp only [Option.elim_none]
    | some v =>
      rw [hlast] at hread
      simp only [Option.elim_some] at hread ⊢
      exact hread.symm

/-- Malformed tokens, an unknown key, a ptr field and a value without its second quote. -/
theorem hk_deserialize_frame_sample :
    ∃ st' m, hkDeserialize sampleFloat (sampleState fun _ => 0) 1 "sample".toList
        (some "id=5;on;size=3;owner=9;=;;id==7;label=\"a".toList) = .ok (0, st') ∧
      findRegistered st' 1 "sample".toList = .ok (some (0, ⟨1, sampleType, m⟩)) ∧
      ModifiesOnlyNamed (sampleState fun _ => 0) st' 0 ⟨1, sampleType, fun _ => 0⟩ m
        "id=5;on;size=3;owner=9;=;;id==7;label=\"a".toList ∧
      ((∀ f ∈ sampleType.fields, StringValid StrHeap.empty (fun _ => 0) f) →
        1 + 2 * 1023 ≤ 2 ^ 64 →
        ∃ st'' m', hkDeserialize sampleFloat st' 1 "sample".toList
            (some "id=5;on;size=3;owner=9;=;;id==7;label=\"a".toList) = .ok (0, st'') ∧
          findRegistered st'' 1 "sample".toList = .ok (some (0, ⟨1, sampleType, m'⟩)) ∧
          ∀ f ∈ sampleType.fields, readField st''.strs m' f = readField st'.strs m f) :=
  @hk_deserialize_frame sampleFloat (sampleState fun _ => 0) 1 0 "sample".toList
    "id=5;on;size=3;owner=9;=;;id==7;label=\"a".toList ⟨1, sampleType, fun _ => 0⟩ rfl
    sampleType_codable.apart (by decide) (by decide)

end Call

/-! ## Whole texts -/

/-- A string value as the format means it: two quotes around a text are taken off. -/
def unquotePair (val : CStr) : CStr :=
  if 2 ≤ val.length ∧ val.head? = some '"' ∧ val.getLast? = some '"' then (val.drop 1).dropLast
  else val

/-- The value that a text stands for, with strings as the format means them. -/
def plainValue (io : FloatText) (t : FieldType) (val : CStr) : Option Value :=
  match t with
  | .string => some (.string (unquotePair val))
  | t => decodeValue io t val

/-- One quote alone is the text on which `hk_deserialize` differs: its first and its last character
are the same one. -/
theorem unquote_eq_pair {val : CStr} : unquote val = unquotePair val ↔ val ≠ ['"'] := by
  unfold unquote unquotePair
  rcases val with _ | ⟨c, _ | ⟨d, s⟩⟩
  · exact iff_of_true rfl (List.cons_ne_nil _ _).symm
  · by_cases hc : c = '"'
    · subst hc
      exact iff_of_false (by decide) (by simp)
    · exact iff_of_true (by simp [hc]) (by simp [hc])
  · refine iff_of_true ?_ (by simp)
    have htake : ((c :: d :: s).drop 1).take ((c :: d :: s).length - 2) =
        ((c :: d :: s).drop 1).dropLast := by
      rw [List.dropLast_eq_take]
      rfl
    rw [htake]
    simp only [List.length_cons, Nat.le_add_left, true_and]

theorem decodeValue_eq_plain {io : FloatText} {t : FieldType} {val : CStr} :
    decodeValue io t val = plainValue io t val ↔ ¬ (t = .string ∧ val = ['"']) := by
  cases t with
  | string =>
    unfold decodeValue plainValue
    rw [Option.some.injEq, Value.string.injEq, unquote_eq_pair]
    simp only [true_and, ne_eq]
  | int | float | bool | char | struct | ptr | unknown =>
    exact iff_of_true rfl (by simp)

section Whole

variable (io : FloatText) (st : State) (reg : RegisteredType) (data : CStr)

/-- The records of the whole text are applied: each int, bool, char and string field that has one
has the value of its last. -/
def AppliesAll (st' : State) (m : Mem) : Prop :=
  ∀ f ∈ reg.typeInfo.fields, f.type ∈ [FieldType.int, .bool, .char, .string] →
    ∀ v, lastValue f (assignedIn reg.typeInfo.fields data) = some v →
      readField st'.strs m f = plainValue io f.type v

/-- The value text `v` of a field's last record gets through: it is in the first 1023 characters and
not a single quote. Else what the field is left with has to stand for the value of `v` already: the
part of `v` or the earlier record in these characters, or what the field had before. -/
def GetsThrough (f : FieldInfo) (v : CStr) : Prop :=
  match lastValue f (assignedIn reg.typeInfo.fields (data.take 1023)) with
  | some w =>
    if w = v then ¬ (f.type = .string ∧ v = ['"'])
    else decodeValue io f.type w = plainValue io f.type v
  | none => readField st.strs reg.dInstance f = plainValue io f.type v

end Whole

theorem getsThrough_iff {io : FloatText} {st : State} {reg : RegisteredType} {data : CStr}
    {f : FieldInfo} {v : CStr} : GetsThrough io st reg data f v ↔
      (lastValue f (assignedIn reg.typeInfo.fields (data.take 1023))).elim
        (readField st.strs reg.dInstance f) (decodeValue io f.type) = plainValue io f.type v := by
  unfold GetsThrough
  cases lastValue f (assignedIn reg.typeInfo.fields (data.take 1023)) with
  | none => simp only [Option.elim_none]
  | some w =>
    simp only [Option.elim_some]
    split
    · rename_i hw
      rw [hw, decodeValue_eq_plain]
    · exact Iff.rfl

/-- **When the whole text is applied**: when the last record of each field gets through. In a text
of at most 1023 characters only a string value that is a single quote does not. -/
theorem hk_deserialize_applies_iff {io : FloatText} {st : State} {pid i : Nat} {tn data : CStr}
    {reg : RegisteredType} (hfind : findRegistered st pid tn = .ok (some (i, reg)))
    (hapart : reg.typeInfo.fields.Pairwise FieldInfo.Apart) (hdata : nul ∉ data)
    (hvalid : ∀ f ∈ reg.typeInfo.fields, StringValid st.strs reg.dInstance f)
    (hroom : st.strs.brk + 1023 ≤ 2 ^ 64) :
    ∃ st' m, hkDeserialize io st pid tn (some data) = .ok (0, st') ∧
      findRegistered st' pid tn = .ok (some (i, { reg with dInstance := m })) ∧
      (AppliesAll io reg data st' m ↔
        ∀ f ∈ reg.typeInfo.fields, f.type ∈ [FieldType.int, .bool, .char, .string] →
          ∀ v, lastValue f (assignedIn reg.typeInfo.fields data) = some v →
            GetsThrough io st reg data f v) ∧
      (data.length ≤ 1023 → (AppliesAll io reg data st' m ↔
        ∀ f ∈ reg.typeInfo.fields, f.type = .string →
          lastValue f (assignedIn reg.typeInfo.fields data) ≠ some ['"'])) := by
  have hiff : AppliesAll io reg data
      ⟨st.registry.set i (some { reg with dInstance := (deserialized io st reg data).1 }),
        (deserialized io st reg data).2⟩ (deserialized io st reg data).1 ↔
      ∀ f ∈ reg.typeInfo.fields, f.type ∈ [FieldType.int, .bool, .char, .string] →
        ∀ v, lastValue f (assignedIn reg.typeInfo.fields data) = some v →
          GetsThrough io st reg data f v := by
    unfold AppliesAll
    refine forall₂_congr fun f hf => forall₃_congr fun _ v _ => ?_
    rw [(deserialized_value hapart hdata hf (hvalid f hf) hroom).1, getsThrough_iff]
  refine ⟨_, _, hkDeserialize_eq io hfind data, findSlot_set hfind rfl rfl, hiff, fun hlen => ?_⟩
  rw [hiff]
  have hthrough : ∀ f v, lastValue f (assignedIn reg.typeInfo.fields data) = some v →
      (GetsThrough io st reg data f v ↔ ¬ (f.type = .string ∧ v = ['"'])) := by
    intro f v hv
    unfold GetsThrough
    rw [List.take_of_length_le hlen, hv]
    simp only [if_true]
  constructor
  · intro h f hf ht hv
    have := (hthrough f _ hv).mp (h f hf (by rw [ht]; decide) _ hv)
    exact this ⟨ht, rfl⟩
  · intro h f hf _ v hv
    rw [hthrough f v hv]
    rintro ⟨ht, rfl⟩
    exact h f hf ht hv

/-- A record in the first 1023 characters, and a string in quotes. -/
theorem hk_deserialize_applies_iff_short :
    ∃ st' m, hkDeserialize sampleFloat (sampleState fun _ => 0) 1 "sample".toList
        (some "id=5;label=\"a\"".toList) = .ok (0, st') ∧
      findRegistered st' 1 "sample".toList = .ok (some (0, ⟨1, sampleType, m⟩)) ∧
      (AppliesAll sampleFloat ⟨1, sampleType, fun _ => 0⟩ "id=5;label=\"a\"".toList st' m ↔
        ∀ f ∈ sampleType.fields, f.type ∈ [FieldType.int, .bool, .char, .string] →
          ∀ v, lastValue f (assignedIn sampleType.fields "id=5;label=\"a\"".toList) = some v →
            GetsThrough sampleFloat (sampleState fun _ => 0) ⟨1, sampleType, fun _ => 0⟩
              "id=5;label=\"a\"".toList f v) ∧
      ("id=5;label=\"a\"".toList.length ≤ 1023 →
        (AppliesAll sampleFloat ⟨1, sampleType, fun _ => 0⟩ "id=5;label=\"a\"".toList st' m ↔
          ∀ f ∈ sampleType.fields, f.type = .string →
            lastValue f (assignedIn sampleType.fields "id=5;label=\"a\"".toList) ≠ some ['"'])) :=
  @hk_deserialize_applies_iff sampleFloat (sampleState fun _ => 0) 1 0 "sample".toList
    "id=5;label=\"a\"".toList ⟨1, sampleType, fun _ => 0⟩ rfl sampleType_codable.apart (by decide)
    (by unfold StringValid; decide) (by decide)

/-- A record behind 1100 delimiters, and a single quote as a string. -/
theorem records_not_applied :
    (∃ st' m, hkDeserialize sampleFloat (sampleState fun _ => 0) 1 "sample".toList
        (some (List.replicate 1100 ';' ++ "id=57;".toList)) = .ok (0, st') ∧
      findRegistered st' 1 "sample".toList = .ok (some (0, ⟨1, sampleType, m⟩)) ∧
      ¬ AppliesAll sampleFloat ⟨1, sampleType, fun _ => 0⟩
        (List.replicate 1100 ';' ++ "id=57;".toList) st' m) ∧
    ∃ st' m, hkDeserialize sampleFloat (sampleState fun _ => 0) 1 "sample".toList
        (some "label=\";".toList) = .ok (0, st') ∧
      findRegistered st' 1 "sample".toList = .ok (some (0, ⟨1, sampleType, m⟩)) ∧
      ¬ AppliesAll sampleFloat ⟨1, sampleType, fun _ => 0⟩ "label=\";".toList st' m := by
  have hfind : findRegistered (sampleState fun _ => 0) 1 "sample".toList =
      .ok (some (0, ⟨1, sampleType, fun _ => 0⟩)) := rfl
  constructor
  · refine ⟨_, _, hkDeserialize_eq _ hfind _, findSlot_set hfind rfl rfl, fun h => ?_⟩
    have hid := h ⟨"id".toList, .int, 0, 4, none⟩ (by decide) (by decide) "57".toList
      (by decide +kernel)
    exact absurd hid (by decide +kernel)
  · refine ⟨_, _, hkDeserialize_eq _ hfind _, findSlot_set hfind rfl rfl, fun h => ?_⟩
    have hlabel := h ⟨"label".toList, .string, 8, 8, none⟩ (by decide) (by decide) ['"']
      (by decide +kernel)
    exact absurd hlabel (by decide +kernel)

end HeapKit
end CoreCDTL
