import CoreCDTL.HeapKit.Types

/-!
# HeapKit: `hk_serialize` and `hk_deserialize`

The text of an instance is one record `name=value;` for each int, float, bool, char and string
field, in field order.

* **The code.** `record` is the buffer `temp[256]` after the `snprintf` of one field,
  `hkSerialize` joins the records, `hkDeserialize` cuts the text with `strtok` and stores each
  token (`applyToken`). Float texts are a parameter (`FloatText`).
* **Values.** `readField` is the value of a field as the program sees it. `encodeValue` is its
  text and `decodeValue` what `hk_deserialize` makes of a text; `decodeValue_encodeValue` is the
  round trip of one value.
* **One store.** `storeField` makes its field read as the decoded value (`readField_storeField`)
  and keeps the bytes and the value of every field that it does not overlap (`storeField_frame`,
  `storeField_other`).
-/

namespace CoreCDTL
namespace HeapKit

/-- `printf`'s text of a float (`%.3f`) and `strtof`, on the 32 bits of the float. -/
structure FloatText where
  fmt : Nat → CStr
  strtof : CStr → Nat

/-! ## The code -/

variable (io : FloatText)

/-- What the format of a field's type prints between `=` and `;`; `none` for a type that the
`switch` skips. -/
def valueText (h : StrHeap) (m : Mem) (f : FieldInfo) : Option (List Char) :=
  match f.type with
  | .int => some (fmtD (m.readInt f.offset))
  | .float => some (io.fmt (leNat (m.read f.offset 4)))
  | .bool => some (if m f.offset ≠ 0 then "true".toList else "false".toList)
  | .char => some [Char.ofNat (m f.offset).toNat]
  | .string => some ('"' :: h.text (m.readPtr f.offset) ++ ['"'])
  | .struct | .ptr | .unknown => none

/-- The characters that the formats `%s=%d;`, `%s=%.3f;`, `%s=%s;`, `%s=%c;` and `%s="%s";`
give. -/
def recordText (name v : List Char) : List Char := name ++ '=' :: (v ++ [';'])

/-- The C string in `temp` after the `snprintf` of a field. -/
def record (h : StrHeap) (m : Mem) (f : FieldInfo) : Option CStr :=
  (valueText io h m f).map fun v => snprintf 256 (recordText f.name v)

/-- The loop of `hk_serialize`: `out` is the text in `out_buf` so far. -/
def serializeLoop (h : StrHeap) (m : Mem) (outBufSize : Nat) : List FieldInfo → CStr → Int × CStr
  | [], out => (0, out)
  | f :: fs, out =>
    match record io h m f with
    | none => serializeLoop h m outBufSize fs out
    | some temp =>
      if out.length + temp.length ≥ outBufSize then (-3, out)
      else serializeLoop h m outBufSize fs (out ++ temp)

/-- `hk_serialize`: the return value and the text in `out_buf`. `outBuf` is the size of
`out_buf`, `none` when it is NULL. -/
def hkSerialize (st : State) (pluginId : Nat) (typeName : CStr) (outBuf : Option Nat) :
    Except Fault (Int × CStr) :=
  match findRegistered st pluginId typeName with
  | .error e => .error e
  | .ok none => .ok (-1, [])
  | .ok (some (_, reg)) =>
    match outBuf with
    | none => .ok (-2, [])
    | some size => .ok (serializeLoop io st.strs reg.dInstance size reg.typeInfo.fields [])

/-- The test and the `strndup` or `strdup` of a string value: one pair of quotes around the text
is taken off. -/
def unquote (val : CStr) : CStr :=
  if val.head? = some '"' ∧ val.getLast? = some '"' then (val.drop 1).take (val.length - 2)
  else val

/-- The `switch` of `hk_deserialize`: the text `val` goes into the field. -/
def storeField (f : FieldInfo) (val : CStr) (s : Mem × StrHeap) : Mem × StrHeap :=
  match f.type with
  | .int => (s.1.writeInt f.offset (atoi val), s.2)
  | .float => (s.1.write f.offset (leBytes 4 (io.strtof val)), s.2)
  | .bool => (s.1.write f.offset [if val = "true".toList then 1 else 0], s.2)
  | .char => (s.1.write f.offset [UInt8.ofNat (val.headD nul).toNat], s.2)
  | .string =>
    let p := s.2.strdup (unquote val)
    (s.1.writePtr f.offset p.1, p.2)
  | .struct | .ptr | .unknown => s

/-- One round of the token loop of `hk_deserialize`. -/
def applyToken (fields : List FieldInfo) (s : Mem × StrHeap) (token : CStr) : Mem × StrHeap :=
  match strchr '=' token with
  | none => s
  | some (key, val) =>
    match fields.find? fun f => f.name = key with
    | none => s
    | some f => storeField io f val s

/-- `hk_deserialize`: the return value and the globals after it; `data` is `none` for NULL. -/
def hkDeserialize (st : State) (pluginId : Nat) (typeName : CStr) (data : Option CStr) :
    Except Fault (Int × State) :=
  match findRegistered st pluginId typeName with
  | .error e => .error e
  | .ok none => .ok (-1, st)
  | .ok (some (i, reg)) =>
    match data with
    | none => .ok (-1, st)
    | some data =>
      let s := (tokens (· = ';') (strncpy 1024 data)).foldl (applyToken io reg.typeInfo.fields)
        (reg.dInstance, st.strs)
      .ok (0, ⟨st.registry.set i (some { reg with dInstance := s.1 }), s.2⟩)

/-- The records of some fields, one after the other. -/
def records (h : StrHeap) (m : Mem) (fs : List FieldInfo) : CStr :=
  (fs.filterMap (record io h m)).flatten

theorem records_append (h : StrHeap) (m : Mem) (fs gs : List FieldInfo) :
    records io h m (fs ++ gs) = records io h m fs ++ records io h m gs := by
  simp [records]

theorem records_cons_some {h : StrHeap} {m : Mem} {f : FieldInfo} {t : CStr}
    (hf : record io h m f = some t) (fs : List FieldInfo) :
    records io h m (f :: fs) = t ++ records io h m fs := by
  simp [records, hf]

theorem records_cons_none {h : StrHeap} {m : Mem} {f : FieldInfo} (hf : record io h m f = none)
    (fs : List FieldInfo) : records io h m (f :: fs) = records io h m fs := by
  simp [records, hf]

/-- A successful `hk_serialize` gives all records. -/
theorem serializeLoop_records {h : StrHeap} {m : Mem} {size : Nat} {fs : List FieldInfo}
    {out text : CStr} (hs : serializeLoop io h m size fs out = (0, text)) :
    text = out ++ records io h m fs := by
  induction fs generalizing out with
  | nil =>
    simp only [serializeLoop, Prod.mk.injEq, true_and] at hs
    simp [records, hs]
  | cons f fs ih =>
    cases hrec : record io h m f with
    | none =>
      rw [serializeLoop, hrec] at hs
      rw [records_cons_none io hrec]
      exact ih hs
    | some temp =>
      rw [serializeLoop, hrec] at hs
      simp only at hs
      split at hs
      · cases hs
      · rw [records_cons_some io hrec, ih hs, List.append_assoc]

/-- The text of a successful `hk_serialize`. -/
theorem hkSerialize_records {st : State} {pid size i : Nat} {name text : CStr}
    {reg : RegisteredType} (hfind : findRegistered st pid name = .ok (some (i, reg)))
    (hs : hkSerialize io st pid name (some size) = .ok (0, text)) :
    text = records io st.strs reg.dInstance reg.typeInfo.fields := by
  unfold hkSerialize at hs
  rw [hfind] at hs
  simp only [Except.ok.injEq] at hs
  simpa using serializeLoop_records io hs

/-- The loop keeps the text in `out_buf` a C string. -/
theorem nul_not_mem_serializeLoop (h : StrHeap) (m : Mem) (size : Nat) (fs : List FieldInfo)
    {out : CStr} (hout : nul ∉ out) : nul ∉ (serializeLoop io h m size fs out).2 := by
  induction fs generalizing out with
  | nil => exact hout
  | cons f fs ih =>
    unfold serializeLoop
    split
    · exact ih hout
    · rename_i temp htemp
      split
      · exact hout
      · apply ih
        obtain ⟨v, -, rfl⟩ := Option.map_eq_some_iff.mp htemp
        rw [List.mem_append]
        exact not_or.mpr ⟨hout, nul_not_mem_cstr _⟩

theorem nul_not_mem_records (h : StrHeap) (m : Mem) (fs : List FieldInfo) :
    nul ∉ records io h m fs := by
  unfold records
  intro hn
  obtain ⟨t, ht, hn⟩ := List.mem_flatten.mp hn
  obtain ⟨f, -, hf⟩ := List.mem_filterMap.mp ht
  obtain ⟨v, -, rfl⟩ := Option.map_eq_some_iff.mp hf
  exact nul_not_mem_cstr _ hn

/-! ## Values -/

/-- The value of a field that has a text. -/
inductive Value where
  | int (n : Int)
  | float (bits : Nat)
  | bool (b : Bool)
  | char (b : UInt8)
  | string (s : CStr)
  deriving DecidableEq

/-- The value of a field, as the program sees it; a NULL string counts as the empty one. -/
def readField (h : StrHeap) (m : Mem) (f : FieldInfo) : Option Value :=
  match f.type with
  | .int => some (.int (m.readInt f.offset))
  | .float => some (.float (leNat (m.read f.offset 4)))
  | .bool => some (.bool (m f.offset ≠ 0))
  | .char => some (.char (m f.offset))
  | .string => some (.string (h.text (m.readPtr f.offset)))
  | .struct | .ptr | .unknown => none

/-- The text of a value. -/
def encodeValue : Value → List Char
  | .int n => fmtD n
  | .float bits => io.fmt bits
  | .bool b => if b then "true".toList else "false".toList
  | .char b => [Char.ofNat b.toNat]
  | .string s => '"' :: s ++ ['"']

/-- The value that a text stands for in a field of a type. -/
def decodeValue (t : FieldType) (val : CStr) : Option Value :=
  match t with
  | .int => some (.int (atoi val))
  | .float => some (.float (io.strtof val % 2 ^ 32))
  | .bool => some (.bool (val = "true".toList))
  | .char => some (.char (UInt8.ofNat (val.headD nul).toNat))
  | .string => some (.string (unquote val))
  | .struct | .ptr | .unknown => none

/-- The text of a field is the text of its value. -/
theorem valueText_eq (h : StrHeap) (m : Mem) (f : FieldInfo) :
    valueText io h m f = (readField h m f).map (encodeValue io) := by
  unfold valueText readField
  cases f.type <;> simp [encodeValue]

theorem unquote_quoted (s : CStr) : unquote ('"' :: s ++ ['"']) = s := by
  have h : ('"' :: s ++ ['"']).getLast? = some '"' := by
    rw [List.getLast?_append]; rfl
  unfold unquote
  rw [if_pos ⟨rfl, h⟩]
  simp

theorem unquote_nul {val : CStr} (h : nul ∉ val) : nul ∉ unquote val := by
  unfold unquote
  split
  · exact fun hm => h (List.mem_of_mem_drop (List.mem_of_mem_take hm))
  · exact h

theorem uint8_char (b : UInt8) : UInt8.ofNat (Char.ofNat b.toNat).toNat = b := by
  have hv : b.toNat.isValidChar := .inl (by have := UInt8.toNat_lt b; omega)
  have hn : (Char.ofNat b.toNat).toNat = b.toNat := by
    unfold Char.ofNat
    rw [dif_pos hv]
    rfl
  rw [hn]
  simp

/-- **Round trip of one value.** What `hk_deserialize` makes of the text of an int, bool, char or
string value is that value. -/
theorem decodeValue_encodeValue {h : StrHeap} {m : Mem} {f : FieldInfo} {v : Value}
    (hv : readField h m f = some v) (hf : f.type ≠ .float) :
    decodeValue io f.type (encodeValue io v) = some v := by
  unfold readField at hv
  cases ht : f.type with
  | int =>
    rw [ht] at hv; cases hv
    have hr := m.readInt_range f.offset
    simp only [encodeValue, decodeValue, atoi_fmtD hr.1 hr.2]
  | float => exact absurd ht hf
  | bool =>
    rw [ht] at hv; cases hv
    by_cases hb : m f.offset = 0 <;> simp [encodeValue, decodeValue, hb]
  | char =>
    rw [ht] at hv; cases hv
    simp only [encodeValue, decodeValue, List.headD_cons, uint8_char]
  | string =>
    rw [ht] at hv; cases hv
    simp only [encodeValue, decodeValue, unquote_quoted]
  | struct => rw [ht] at hv; cases hv
  | ptr => rw [ht] at hv; cases hv
  | unknown => rw [ht] at hv; cases hv

/-! ## One store -/

/-- The bytes of a field: its registered size and what a typed access of its type touches. -/
def FieldInfo.span (f : FieldInfo) : Nat := max f.size (hkTypeSize f.type)

def FieldInfo.Occupies (f : FieldInfo) (i : Nat) : Prop := f.offset ≤ i ∧ i < f.offset + f.span

/-- No byte is in both fields. -/
def FieldInfo.Apart (f g : FieldInfo) : Prop := ∀ i, f.Occupies i → ¬ g.Occupies i

theorem FieldInfo.Apart.symm {f g : FieldInfo} (h : f.Apart g) : g.Apart f :=
  fun i hg hf => h i hf hg

instance : Std.Symm FieldInfo.Apart := ⟨fun _ _ h => h.symm⟩

theorem write_frame {f : FieldInfo} {m : Mem} {bs : List UInt8}
    (hl : bs.length = hkTypeSize f.type) {i : Nat} (hi : ¬ f.Occupies i) :
    m.write f.offset bs i = m i := by
  unfold FieldInfo.Occupies FieldInfo.span at hi
  unfold Mem.write
  rw [if_neg (by omega)]

/-- A store changes only bytes of its field, and only adds strings. -/
theorem storeField_frame {f : FieldInfo} {val : CStr} {s : Mem × StrHeap} :
    (∀ i, ¬ f.Occupies i → (storeField io f val s).1 i = s.1 i) ∧
      s.2.brk ≤ (storeField io f val s).2.brk ∧
      (storeField io f val s).2.brk ≤ s.2.brk + 1 ∧
      ∀ a, a < s.2.brk → (storeField io f val s).2.text a = s.2.text a := by
  have same : ∀ bs : List UInt8, bs.length = hkTypeSize f.type →
      (∀ i, ¬ f.Occupies i → s.1.write f.offset bs i = s.1 i) ∧ s.2.brk ≤ s.2.brk ∧
        s.2.brk ≤ s.2.brk + 1 ∧ ∀ a, a < s.2.brk → s.2.text a = s.2.text a :=
    fun bs hl => ⟨fun i hi => write_frame hl hi, Nat.le_refl _, Nat.le_succ _, fun _ _ => rfl⟩
  unfold storeField
  cases ht : f.type with
  | int => exact same _ (by rw [leBytes_length, ht]; rfl)
  | float => exact same _ (by rw [leBytes_length, ht]; rfl)
  | bool => exact same _ (by rw [ht]; rfl)
  | char => exact same _ (by rw [ht]; rfl)
  | string =>
    refine ⟨fun i hi => write_frame (by rw [leBytes_length, ht]; rfl) hi, ?_, ?_, ?_⟩
    · simp only [StrHeap.strdup]; split <;> simp
    · simp only [StrHeap.strdup]; split <;> simp
    · intro a ha
      simp only [StrHeap.strdup]
      split
      · simp only [StrHeap.text]
        rw [Function.update_of_ne (by omega)]
      · rfl
  | struct => exact ⟨fun _ _ => rfl, Nat.le_refl _, Nat.le_succ _, fun _ _ => rfl⟩
  | ptr => exact ⟨fun _ _ => rfl, Nat.le_refl _, Nat.le_succ _, fun _ _ => rfl⟩
  | unknown => exact ⟨fun _ _ => rfl, Nat.le_refl _, Nat.le_succ _, fun _ _ => rfl⟩

/-- The bytes of a field that a store does not overlap. -/
theorem storeField_apart {f g : FieldInfo} {val : CStr} {s : Mem × StrHeap} (h : f.Apart g)
    {n : Nat} (hn : n ≤ g.span) :
    (storeField io f val s).1.read g.offset n = s.1.read g.offset n := by
  apply Mem.read_congr
  intro i h₁ h₂
  apply (storeField_frame io).1
  exact fun hf => h i hf ⟨h₁, by omega⟩

theorem read_one (m : Mem) (o : Nat) : m.read o 1 = [m o] := rfl

/-- Two fields of one type with the same bytes have the same value. -/
theorem readField_shift {h h' : StrHeap} {m m' : Mem} {f g : FieldInfo} (hg : g.type = f.type)
    (hm : ∀ n, n ≤ hkTypeSize f.type → m'.read g.offset n = m.read f.offset n)
    (ht : f.type = .string → h'.text (m.readPtr f.offset) = h.text (m.readPtr f.offset)) :
    readField h' m' g = readField h m f := by
  unfold readField
  rw [hg]
  cases hft : f.type with
  | int =>
    have h4 := hm 4 (by rw [hft]; exact Nat.le_refl _)
    have hi : m'.readInt g.offset = m.readInt f.offset := by unfold Mem.readInt; rw [h4]
    rw [hi]
  | float =>
    have := hm 4 (by rw [hft]; exact Nat.le_refl _)
    simp only [this]
  | bool =>
    have := hm 1 (by rw [hft]; exact Nat.le_refl _)
    rw [read_one, read_one, List.cons.injEq] at this
    simp only [this.1]
  | char =>
    have := hm 1 (by rw [hft]; exact Nat.le_refl _)
    rw [read_one, read_one, List.cons.injEq] at this
    simp only [this.1]
  | string =>
    have := hm 8 (by rw [hft]; exact Nat.le_refl _)
    have hp : m'.readPtr g.offset = m.readPtr f.offset := by simp only [Mem.readPtr, this]
    simp only [hp, ht hft]
  | struct => rfl
  | ptr => rfl
  | unknown => rfl

/-- A read of a field depends on its bytes and on the string that it points to. -/
theorem readField_congr {h h' : StrHeap} {m m' : Mem} {f : FieldInfo}
    (hm : ∀ n, n ≤ f.span → m'.read f.offset n = m.read f.offset n)
    (ht : f.type = .string → h'.text (m.readPtr f.offset) = h.text (m.readPtr f.offset)) :
    readField h' m' f = readField h m f :=
  readField_shift rfl (fun n hn => hm n (Nat.le_trans hn (Nat.le_max_right _ _))) ht

/-- After a store, the field reads as the decoded value, and a string pointer is below the
allocator's next address. -/
theorem readField_storeField {f : FieldInfo} {val : CStr} {s : Mem × StrHeap} (hv : nul ∉ val)
    (hb : s.2.brk < 2 ^ 64) :
    readField (storeField io f val s).2 (storeField io f val s).1 f = decodeValue io f.type val ∧
      (f.type = .string →
        (storeField io f val s).1.readPtr f.offset < (storeField io f val s).2.brk) := by
  unfold storeField readField decodeValue
  cases ht : f.type with
  | int =>
    have hr : -(2 ^ 31) ≤ atoi val ∧ atoi val < 2 ^ 31 := by
      unfold atoi
      exact bmod_range _ (by decide) (by decide)
    simp only [Mem.readInt_writeInt _ _ hr.1 hr.2, reduceCtorEq, false_implies, and_self]
  | float =>
    have h := Mem.read_write_self s.1 f.offset (leBytes 4 (io.strtof val))
    rw [leBytes_length] at h
    simp only [h, leNat_leBytes, reduceCtorEq, false_implies, and_true]
    rfl
  | bool => by_cases hb : val = "true".toList <;> simp [Mem.write, hb]
  | char => simp [Mem.write]
  | string =>
    obtain ⟨h₁, h₂, h₃, -⟩ := StrHeap.strdup_spec (unquote_nul hv) hb
    have hp := Mem.readPtr_writePtr s.1 f.offset hb
    have hpos := s.2.brk_pos
    simp only [h₁, hp, h₂, StrHeap.text, h₃, show s.2.brk ≠ 0 by omega, ↓reduceIte, true_and]
    exact fun _ => Nat.lt_succ_self _
  | struct => simp
  | ptr => simp
  | unknown => simp

/-- The pointer of a string field is NULL or points to a string. -/
def StringValid (h : StrHeap) (m : Mem) (f : FieldInfo) : Prop :=
  f.type = .string → m.readPtr f.offset < h.brk

/-- A store leaves the value of a field that it does not overlap. -/
theorem storeField_other {f g : FieldInfo} (h : f.Apart g) {w : CStr} {s : Mem × StrHeap}
    (hg : StringValid s.2 s.1 g) :
    readField (storeField io f w s).2 (storeField io f w s).1 g = readField s.2 s.1 g ∧
      StringValid (storeField io f w s).2 (storeField io f w s).1 g := by
  obtain ⟨-, hbrk, -, htext⟩ := @storeField_frame io f w s
  constructor
  · exact readField_congr (fun n hn => storeField_apart io h hn) fun ht => htext _ (hg ht)
  · intro ht
    have hspan : 8 ≤ g.span := by
      unfold FieldInfo.span
      rw [ht]
      exact Nat.le_max_right _ _
    have hsame : (storeField io f w s).1.readPtr g.offset = s.1.readPtr g.offset := by
      unfold Mem.readPtr
      rw [storeField_apart io h hspan]
    rw [hsame]
    exact Nat.lt_of_lt_of_le (hg ht) hbrk

end HeapKit
end CoreCDTL
