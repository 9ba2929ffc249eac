import CoreCDTL.HeapKit.RoundTrip

/-!
# HeapKit: what one field's value does to another field

`hk_serialize` escapes nothing, cuts a record at 255 characters and ends it early at a NUL, and
`hk_deserialize` reads 1023 characters. So the value of one field can swallow the record of the
next one, cut the text off, or bring a record of its own for another field.

* `fieldAfter`: the value of a field after a text was deserialized.
* `Shielded`: in this instance, no other value gets at the record of `g`: it starts a token, it is
  all there, and no later token names `g`.
* `fieldAfter_shielded`: two shielded instances that agree in `g` leave the same value in `g`.
* `nul_char_swallows_next`: the zeroed instance is not shielded: a NUL char takes the `;` away and
  with it the record of the next field.
-/

namespace CoreCDTL
namespace HeapKit

variable (io : FloatText)

/-- The value of a field after `hk_deserialize` returned 0 for `text`. -/
def fieldAfter (st : State) (pid : Nat) (name : CStr) (g : FieldInfo) (text : CStr) :
    Option Value :=
  match hkDeserialize io st pid name (some text) with
  | .ok (0, st') =>
    match findRegistered st' pid name with
    | .ok (some (_, reg)) => readField st'.strs reg.dInstance g
    | _ => none
  | _ => none

/-- The value that a token gives the field with this name. -/
def namedValue (name token : CStr) : Option CStr :=
  match strchr '=' token with
  | some (key, val) => if key = name then some val else none
  | none => none

/-- The value that the last of some tokens for the field with this name gives it. -/
def lastNamed (name : CStr) : List CStr → Option CStr
  | [] => none
  | t :: ts => (lastNamed name ts).or (namedValue name t)

/-- No value of another field gets at the record of `g`: in the text of an instance, with the
fields `before` and `after` around `g`,
* the record of `g` starts a token,
* it is whole in `temp[256]` and in `buf[1024]`,
* no token after it names `g`. -/
structure Shielded (h : StrHeap) (m : Mem) (before : List FieldInfo) (g : FieldInfo)
    (after : List FieldInfo) : Prop where
  starts : records io h m before = [] ∨ (records io h m before).getLast? = some ';'
  whole : ∀ v, valueText io h m g = some v → nul ∉ v ∧ (recordText g.name v).length ≤ 255 ∧
    (records io h m before).length + (recordText g.name v).length ≤ 1023
  quiet : ∀ t ∈ tokens (· = ';') ((strncpy 1024 (records io h m (before ++ g :: after))).drop
    (records io h m (before ++ [g])).length), namedValue g.name t = none

/-- The names of a type, as far as the search for a key depends on them. -/
structure NamedApart (fields : List FieldInfo) (g : FieldInfo) : Prop where
  mem : g ∈ fields
  distinct : (fields.map FieldInfo.name).Nodup
  noNul : nul ∉ g.name
  noEq : '=' ∉ g.name
  noSemi : ';' ∉ g.name
  apart : ∀ f ∈ fields, f ≠ g → f.Apart g

variable {io}

/-! ## What the tokens do to one field -/

theorem lastNamed_append (name : CStr) (xs ys : List CStr) :
    lastNamed name (xs ++ ys) = (lastNamed name ys).or (lastNamed name xs) := by
  induction xs with
  | nil => simp [lastNamed]
  | cons t ts ih => simp [lastNamed, ih, Option.or_assoc]

theorem lastNamed_none {name : CStr} {ts : List CStr} (h : ∀ t ∈ ts, namedValue name t = none) :
    lastNamed name ts = none := by
  induction ts with
  | nil => rfl
  | cons t ts ih =>
    rw [lastNamed, ih fun u hu => h u (List.mem_cons_of_mem _ hu), h t (by simp)]
    rfl

theorem namedValue_record {name v : CStr} (h : '=' ∉ name) :
    namedValue name (name ++ '=' :: v) = some v := by
  unfold namedValue
  rw [strchr_append h]
  simp

/-- What is known of the field `g`: its value, and that a string is below `brk`. -/
structure Holds (g : FieldInfo) (v : Option Value) (s : Mem × StrHeap) : Prop where
  value : readField s.2 s.1 g = v
  ptr : g.type = .string → s.1.readPtr g.offset < s.2.brk

/-- A store to another field keeps the value. -/
theorem Holds.storeField {f g : FieldInfo} {v : Option Value} {val : CStr} {s : Mem × StrHeap}
    (hg : Holds g v s) (ha : f.Apart g) : Holds g v (storeField io f val s) := by
  obtain ⟨-, h₂, -, h₄⟩ := @storeField_frame io f val s
  have hread : ∀ n, n ≤ g.span →
      (HeapKit.storeField io f val s).1.read g.offset n = s.1.read g.offset n :=
    fun n hn => storeField_apart io ha hn
  refine ⟨?_, fun ht => ?_⟩
  · rw [← hg.value]
    exact readField_congr hread fun ht => h₄ _ (hg.ptr ht)
  · have h8 : (8 : Nat) ≤ g.span := by unfold FieldInfo.span; rw [ht]; exact Nat.le_max_right _ _
    have hp : (HeapKit.storeField io f val s).1.readPtr g.offset = s.1.readPtr g.offset := by
      simp only [Mem.readPtr, hread 8 h8]
    rw [hp]
    exact Nat.lt_of_lt_of_le (hg.ptr ht) h₂

/-- A token that names `g` gives it the decoded value. -/
theorem holds_applyToken {fields : List FieldInfo} {g : FieldInfo} (hg : NamedApart fields g)
    {t val : CStr} (ht : namedValue g.name t = some val) (hn : nul ∉ t) {s : Mem × StrHeap}
    (hb : s.2.brk < 2 ^ 64) :
    Holds g (decodeValue io g.type val) (applyToken io fields s t) := by
  unfold namedValue at ht
  unfold applyToken
  cases hs : strchr '=' t with
  | none => rw [hs] at ht; cases ht
  | some p =>
    obtain ⟨key, w⟩ := p
    rw [hs] at ht
    simp only at ht
    split at ht
    · rename_i hk
      obtain rfl : w = val := Option.some.inj ht
      subst hk
      have hw : nul ∉ w := by
        unfold strchr at hs
        split at hs
        · simp only [Option.some.injEq, Prod.mk.injEq] at hs
          rw [← hs.2]
          exact fun hm => hn ((List.dropWhile_suffix _).mem (List.mem_of_mem_drop hm))
        · cases hs
      simp only [find_name hg.distinct hg.mem]
      obtain ⟨h₁, h₂⟩ := @readField_storeField io g w s hw hb
      exact ⟨h₁, h₂⟩
    · cases ht

/-- A token that does not name `g` keeps its value. -/
theorem Holds.applyToken {fields : List FieldInfo} {g : FieldInfo} (hg : NamedApart fields g)
    {v : Option Value} {t : CStr} (ht : namedValue g.name t = none) {s : Mem × StrHeap}
    (hs : Holds g v s) : Holds g v (applyToken io fields s t) := by
  unfold namedValue at ht
  unfold HeapKit.applyToken
  cases hc : strchr '=' t with
  | none => exact hs
  | some p =>
    obtain ⟨key, w⟩ := p
    rw [hc] at ht
    simp only at ht ⊢
    split at ht
    · cases ht
    · rename_i hk
      cases hf : fields.find? fun f => f.name = key with
      | none => exact hs
      | some f =>
        have hname : f.name = key := by simpa using List.find?_some hf
        have hne : f ≠ g := fun e => hk (by rw [← hname, e])
        exact hs.storeField (hg.apart f (List.mem_of_find?_eq_some hf) hne)

theorem brk_applyToken {fields : List FieldInfo} {t : CStr} {s : Mem × StrHeap} :
    (applyToken io fields s t).2.brk ≤ s.2.brk + 1 := by
  unfold applyToken
  split
  · exact Nat.le_succ _
  · split
    · exact Nat.le_succ _
    · exact (storeField_frame io).2.2.1

theorem brk_foldl_applyToken {fields : List FieldInfo} {ts : List CStr} {s : Mem × StrHeap} :
    (ts.foldl (applyToken io fields) s).2.brk ≤ s.2.brk + ts.length := by
  induction ts generalizing s with
  | nil => exact Nat.le_refl _
  | cons t ts ih =>
    have h₁ := @ih (applyToken io fields s t)
    have h₂ := @brk_applyToken io fields t s
    simp only [List.foldl_cons, List.length_cons]
    omega

/-- After all tokens, `g` has the value of the last one that names it. -/
theorem Holds.foldl_applyToken {fields : List FieldInfo} {g : FieldInfo}
    (hg : NamedApart fields g) {ts : List CStr} {v : Option Value} {s : Mem × StrHeap}
    (hs : Holds g v s) (hn : ∀ t ∈ ts, nul ∉ t) (hb : s.2.brk + ts.length ≤ 2 ^ 64) :
    Holds g ((lastNamed g.name ts).elim v (decodeValue io g.type))
      (ts.foldl (HeapKit.applyToken io fields) s) := by
  induction ts generalizing s v with
  | nil => exact hs
  | cons t ts ih =>
    have hlen : (t :: ts).length = ts.length + 1 := rfl
    have hb' := @brk_applyToken io fields t s
    have hn' := fun u hu => hn u (List.mem_cons_of_mem t hu)
    rw [List.foldl_cons, lastNamed]
    cases ht : namedValue g.name t with
    | none =>
      rw [Option.or_none]
      exact ih (hs.applyToken hg ht) hn' (by omega)
    | some w =>
      have h := ih (@holds_applyToken io fields g hg t w ht (hn t (by simp)) s (by omega)) hn' (by omega)
      cases hl : lastNamed g.name ts with
      | none => rw [hl] at h; exact h
      | some u => rw [hl] at h; exact h

/-! ## A shielded field -/

/-- The tokens of a record: the first one names its field. -/
theorem tokens_recordText {name v : CStr} (hs : ';' ∉ name) :
    ∃ w ts, tokens (· = ';') (name ++ '=' :: v) = (name ++ '=' :: w) :: ts := by
  have hname : ∀ x ∈ name, decide (x = ';') = false := by
    intro x hx
    simpa using fun e : x = ';' => hs (e ▸ hx)
  have hpiece : ∀ w : CStr, (∀ x ∈ w, decide (x = ';') = false) →
      ∀ x ∈ name ++ '=' :: w, decide (x = ';') = false := by
    intro w hw x hx
    rcases List.mem_append.mp hx with hx | hx
    · exact hname x hx
    · rcases List.mem_cons.mp hx with rfl | hx
      · decide
      · exact hw x hx
  by_cases hv : ∀ x ∈ v, decide (x = ';') = false
  · exact ⟨v, [], tokens_piece (by simp) (hpiece v hv)⟩
  · obtain ⟨w, c, r, hw, hc, rfl⟩ := exists_piece hv
    refine ⟨w, tokens (· = ';') r, ?_⟩
    rw [show name ++ '=' :: (w ++ c :: r) = (name ++ '=' :: w) ++ c :: r by simp]
    exact tokens_append (by simp) (hpiece w hw) hc

/-- The tokens of `buf`: those of the fields before `g`, those of the record of `g`, and some that
do not name `g`. -/
theorem Shielded.tokens {h : StrHeap} {m : Mem} {before after : List FieldInfo} {g : FieldInfo}
    (hs : Shielded io h m before g after) (hn : nul ∉ g.name) {v : CStr}
    (hv : valueText io h m g = some v) :
    ∃ ts us, tokens (· = ';') (strncpy 1024 (records io h m (before ++ g :: after))) =
        ts ++ tokens (· = ';') (g.name ++ '=' :: v) ++ us ∧
      ∀ u ∈ us, namedValue g.name u = none := by
  obtain ⟨h₁, h₂, h₃⟩ := hs.whole v hv
  have hrec : record io h m g = some (recordText g.name v) := by
    unfold record
    rw [hv, Option.map_some, snprintf_eq_self _ (by omega)]
    simp only [recordText, List.mem_append, List.mem_cons, List.not_mem_nil, or_false, not_or]
    exact ⟨hn, by decide, h₁, by decide⟩
  set A := records io h m before with hA
  set R := recordText g.name v with hR
  set P := (strncpy 1024 (records io h m (before ++ g :: after))).drop (A ++ R).length with hP
  have hAR : records io h m (before ++ [g]) = A ++ R := by
    rw [records_append, records_cons_some io hrec, hA]
    simp [records]
  have hbuf : strncpy 1024 (records io h m (before ++ g :: after)) = A ++ R ++ P := by
    have hlen : (A ++ R).length ≤ 1023 := by rw [List.length_append]; exact h₃
    rw [hP, records_append, records_cons_some io hrec, ← List.append_assoc]
    unfold strncpy
    rw [List.take_append, List.take_of_length_le hlen, List.drop_left]
  have htail : CoreCDTL.tokens (· = ';') (A ++ (g.name ++ '=' :: v) ++ ';' :: P) =
      CoreCDTL.tokens (· = ';') (A ++ (g.name ++ '=' :: v)) ++ CoreCDTL.tokens (· = ';') P :=
    tokens_append_cons (by decide) _ _
  have hhead : ∃ ts, CoreCDTL.tokens (· = ';') (A ++ (g.name ++ '=' :: v)) =
      ts ++ CoreCDTL.tokens (· = ';') (g.name ++ '=' :: v) := by
    rcases hs.starts with hnil | hlast
    · exact ⟨[], by rw [← hA] at hnil; rw [hnil]; rfl⟩
    · obtain ⟨B, hB⟩ := List.getLast?_eq_some_iff.mp hlast
      refine ⟨CoreCDTL.tokens (· = ';') B, ?_⟩
      rw [hA, hB, List.append_assoc]
      exact tokens_append_cons (by decide) _ _
  obtain ⟨ts, hts⟩ := hhead
  refine ⟨ts, CoreCDTL.tokens (· = ';') P, ?_, ?_⟩
  · rw [hbuf, ← hts, ← htail, hR]
    simp [recordText]
  · have hq := hs.quiet
    rw [hAR] at hq
    exact hq

/-- After a shielded text the field has a value that its own record decides. -/
theorem fieldAfter_shielded_eq {st st' : State} {pid size i i' : Nat} {name text : CStr}
    {reg reg' : RegisteredType} {before after : List FieldInfo} {g : FieldInfo}
    (hfind : findRegistered st pid name = .ok (some (i, reg)))
    (hfields : reg.typeInfo.fields = before ++ g :: after)
    (hg : NamedApart reg.typeInfo.fields g)
    (hser : hkSerialize io st pid name (some size) = .ok (0, text))
    (hs : Shielded io st.strs reg.dInstance before g after) {v : CStr}
    (hv : valueText io st.strs reg.dInstance g = some v)
    (hfind' : findRegistered st' pid name = .ok (some (i', reg')))
    (hty : reg'.typeInfo = reg.typeInfo) (hroom : st'.strs.brk + 1024 ≤ 2 ^ 64) :
    ∃ w ts, tokens (· = ';') (g.name ++ '=' :: v) = (g.name ++ '=' :: w) :: ts ∧
      fieldAfter io st' pid name g text =
        decodeValue io g.type ((lastNamed g.name ts).getD w) := by
  obtain ⟨w, ws, hw⟩ := @tokens_recordText g.name v hg.noSemi
  obtain ⟨ts, us, htok, hus⟩ := hs.tokens hg.noNul hv
  refine ⟨w, ws, hw, ?_⟩
  have htext := hkSerialize_records io hfind hser
  rw [hfields] at htext
  set all := tokens (· = ';') (strncpy 1024 text) with hall
  have hlen : all.length ≤ 1023 :=
    Nat.le_trans (tokens_length_le _ _) (by unfold strncpy; exact List.length_take_le _ _)
  have hnul : ∀ t ∈ all, nul ∉ t := by
    intro t ht hn
    have := List.mem_of_mem_take (mem_of_mem_tokens ht hn)
    rw [htext] at this
    exact nul_not_mem_records io _ _ _ this
  have hsplit : all = ts ++ (g.name ++ '=' :: w) :: (ws ++ us) := by
    rw [hall, htext, htok, hw]
    simp
  -- Before the record of `g` anything may happen; its token sets `g`, and only itself after that.
  have hholds : Holds g (decodeValue io g.type ((lastNamed g.name ws).getD w))
      (all.foldl (applyToken io reg.typeInfo.fields) (reg'.dInstance, st'.strs)) := by
    have hbrk : (ts.foldl (applyToken io reg.typeInfo.fields) (reg'.dInstance, st'.strs)).2.brk ≤
        st'.strs.brk + ts.length := brk_foldl_applyToken
    rw [hsplit] at hlen hnul ⊢
    simp only [List.length_append, List.length_cons] at hlen
    rw [List.foldl_append, List.foldl_cons]
    set s := ts.foldl (applyToken io reg.typeInfo.fields) (reg'.dInstance, st'.strs) with hs
    have hbrk' := @brk_applyToken io reg.typeInfo.fields (g.name ++ '=' :: w) s
    have h₁ : Holds g (decodeValue io g.type w)
        (applyToken io reg.typeInfo.fields s (g.name ++ '=' :: w)) :=
      holds_applyToken hg (namedValue_record hg.noEq) (hnul _ (by simp)) (by omega)
    have h₂ := @Holds.foldl_applyToken io _ _ hg (ws ++ us) _ _ h₁
      (fun t ht => hnul t (List.mem_append_right _ (List.mem_cons_of_mem _ ht)))
      (by rw [List.length_append]; omega)
    rw [lastNamed_append, lastNamed_none hus, Option.none_or] at h₂
    cases hl : lastNamed g.name ws with
    | none => rw [hl] at h₂; exact h₂
    | some u => rw [hl] at h₂; exact h₂
  set s := all.foldl (applyToken io reg.typeInfo.fields) (reg'.dInstance, st'.strs) with hs'
  set reg'' : RegisteredType := { reg' with dInstance := s.1 } with hreg''
  have hdes : hkDeserialize io st' pid name (some text) =
      .ok (0, ⟨st'.registry.set i' (some reg''), s.2⟩) := by
    have hfold : all.foldl (applyToken io reg'.typeInfo.fields) (reg'.dInstance, st'.strs) = s := by
      rw [hs', hty]
    unfold hkDeserialize
    rw [hfind']
    simp only [← hall, hfold, ← hreg'']
  have hfind'' : findRegistered ⟨st'.registry.set i' (some reg''), s.2⟩ pid name =
      .ok (some (i', reg'')) := findSlot_set hfind' rfl rfl
  unfold fieldAfter
  rw [hdes]
  simp only [hfind'']
  exact hholds.value

/-- A field with a value has one after every text. -/
theorem decodeValue_isSome {h : StrHeap} {m : Mem} {g : FieldInfo} {val : Value}
    (hv : readField h m g = some val) (t : CStr) : ∃ v, decodeValue io g.type t = some v := by
  unfold readField at hv
  unfold decodeValue
  cases ht : g.type with
  | int | float | bool | char | string => exact ⟨_, rfl⟩
  | struct | ptr | unknown => rw [ht] at hv; cases hv

/-- **No injection into a shielded field.** Two instances of a type that agree in the field `g`,
and in whose texts no other value gets at its record, leave the same value in `g` when their texts
are deserialized into the same instance. -/
theorem fieldAfter_shielded {st₁ st₂ st' : State} {pid size₁ size₂ i₁ i₂ i' : Nat}
    {name text₁ text₂ : CStr} {reg₁ reg₂ reg' : RegisteredType} {before after : List FieldInfo}
    {g : FieldInfo} {val : Value}
    (hfind₁ : findRegistered st₁ pid name = .ok (some (i₁, reg₁)))
    (hfind₂ : findRegistered st₂ pid name = .ok (some (i₂, reg₂)))
    (hfind' : findRegistered st' pid name = .ok (some (i', reg')))
    (hty₁ : reg'.typeInfo = reg₁.typeInfo) (hty₂ : reg'.typeInfo = reg₂.typeInfo)
    (hfields : reg'.typeInfo.fields = before ++ g :: after)
    (hg : NamedApart reg'.typeInfo.fields g)
    (hval₁ : readField st₁.strs reg₁.dInstance g = some val)
    (hval₂ : readField st₂.strs reg₂.dInstance g = some val)
    (hser₁ : hkSerialize io st₁ pid name (some size₁) = .ok (0, text₁))
    (hser₂ : hkSerialize io st₂ pid name (some size₂) = .ok (0, text₂))
    (hs₁ : Shielded io st₁.strs reg₁.dInstance before g after)
    (hs₂ : Shielded io st₂.strs reg₂.dInstance before g after)
    (hroom : st'.strs.brk + 1024 ≤ 2 ^ 64) :
    ∃ v, fieldAfter io st' pid name g text₁ = some v ∧
      fieldAfter io st' pid name g text₂ = some v := by
  have hv₁ : valueText io st₁.strs reg₁.dInstance g = some (encodeValue io val) := by
    rw [valueText_eq, hval₁]; rfl
  have hv₂ : valueText io st₂.strs reg₂.dInstance g = some (encodeValue io val) := by
    rw [valueText_eq, hval₂]; rfl
  obtain ⟨w, ws, hw, h₁⟩ := fieldAfter_shielded_eq hfind₁ (hty₁ ▸ hfields) (hty₁ ▸ hg) hser₁ hs₁
    hv₁ hfind' hty₁ hroom
  obtain ⟨u, us, hu, h₂⟩ := fieldAfter_shielded_eq hfind₂ (hty₂ ▸ hfields) (hty₂ ▸ hg) hser₂ hs₂
    hv₂ hfind' hty₂ hroom
  -- The record of `g` is the same in both texts.
  rw [hw, List.cons.injEq, List.append_cancel_left_eq, List.cons.injEq] at hu
  obtain ⟨⟨-, rfl⟩, rfl⟩ := hu
  obtain ⟨v, hv⟩ := @decodeValue_isSome io _ _ _ _ hval₁ ((lastNamed g.name ws).getD w)
  exact ⟨v, h₁.trans hv, h₂.trans hv⟩

/-- The char field of `pairType`. -/
def pairChar : FieldInfo := ⟨"c".toList, .char, 0, 1, none⟩

/-- The int field of `pairType`. -/
def pairInt : FieldInfo := ⟨"g".toList, .int, 4, 4, none⟩

/-- A char before an int. -/
def pairType : TypeInfo := ⟨"pair".toList, 8, [pairChar, pairInt]⟩

/-- The instance with the char `c` and the int `g`. -/
def pairInstance (c g : UInt8) : Mem := fun i => if i = 0 then c else if i = 4 then g else 0

/-- The registry with this instance. -/
def pairState (c g : UInt8) : State := ⟨[some ⟨1, pairType, pairInstance c g⟩], StrHeap.empty⟩

theorem pairType_namedApart : NamedApart pairType.fields pairInt where
  mem := by decide
  distinct := by decide
  noNul := by decide
  noEq := by decide
  noSemi := by decide
  apart := by
    intro f hf hne i h₁ h₂
    rcases List.mem_cons.mp hf with rfl | hf
    · exact absurd (Nat.le_trans h₂.1 (Nat.lt_succ_iff.mp h₁.2)) (by decide)
    · exact hne (List.mem_singleton.mp hf)

theorem pairInstance_shielded {c : UInt8} (hc : c = 65 ∨ c = 66) :
    Shielded sampleFloat StrHeap.empty (pairInstance c 5) [pairChar] pairInt [] := by
  have whole : ∀ c ∈ [(65 : UInt8), 66],
      ∀ v ∈ valueText sampleFloat StrHeap.empty (pairInstance c 5) pairInt,
        nul ∉ v ∧ (recordText pairInt.name v).length ≤ 255 ∧
          (records sampleFloat StrHeap.empty (pairInstance c 5) [pairChar]).length +
            (recordText pairInt.name v).length ≤ 1023 := by decide +kernel
  rcases hc with rfl | rfl
  · exact ⟨by decide +kernel, whole 65 (by decide), by decide +kernel⟩
  · exact ⟨by decide +kernel, whole 66 (by decide), by decide +kernel⟩

/-- The texts `c=A;g=5;` and `c=B;g=5;` leave the same `g`. -/
theorem fieldAfter_shielded_pair :
    ∃ v, fieldAfter sampleFloat (pairState 0 7) 1 "pair".toList pairInt
        "c=A;g=5;".toList = some v ∧
      fieldAfter sampleFloat (pairState 0 7) 1 "pair".toList pairInt
        "c=B;g=5;".toList = some v :=
  @fieldAfter_shielded sampleFloat (pairState 65 5) (pairState 66 5) (pairState 0 7) 1 20 20 0 0 0
    "pair".toList _ _ _ _ _ [pairChar] [] pairInt (.int 5) rfl rfl rfl rfl rfl rfl
    pairType_namedApart (by decide +kernel) (by decide +kernel) (by decide +kernel)
    (by decide +kernel) (pairInstance_shielded (.inl rfl)) (pairInstance_shielded (.inr rfl))
    (by decide)

/-- **A NUL char swallows the record of the next field.** The zeroed instance and the one with the
char `A` agree in the int `g`, and both are serialized. The text of the first has no record of
`g`: the target keeps its 7, where the text of the second sets it to 0. -/
theorem nul_char_swallows_next :
    readField StrHeap.empty (pairInstance 0 0) pairInt =
      readField StrHeap.empty (pairInstance 65 0) pairInt ∧
    hkSerialize sampleFloat (pairState 0 0) 1 "pair".toList (some 1024) =
      .ok (0, "c=g=0;".toList) ∧
    hkSerialize sampleFloat (pairState 65 0) 1 "pair".toList (some 1024) =
      .ok (0, "c=A;g=0;".toList) ∧
    fieldAfter sampleFloat (pairState 65 7) 1 "pair".toList pairInt "c=g=0;".toList =
      some (.int 7) ∧
    fieldAfter sampleFloat (pairState 65 7) 1 "pair".toList pairInt "c=A;g=0;".toList =
      some (.int 0) := by
  decide +kernel

end HeapKit
end CoreCDTL
