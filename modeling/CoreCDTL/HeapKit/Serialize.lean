import CoreCDTL.HeapKit.Codec
import CoreCDTL.Lib.CBuffer

/-!
# HeapKit: `hk_serialize` on its buffer

`serializeLoop` follows the text in `out_buf`. Here the loop works on the buffer itself.

* `serializeBuf` and `hkSerializeBuf`: the code, `none` for an access past the end of `out_buf`.
  `hkSerializeBuf_eq`: it never goes there, and leaves the text of `hkSerialize`.
* `hk_serialize_bounded`: the text is the longest sequence of records that fits, after every field.
* `hk_serialize_whole_iff`: when the records in the text are complete.
-/

namespace CoreCDTL
namespace HeapKit

variable (io : FloatText)

/-! ## The code -/

/-- The loop of `hk_serialize`: the return value and `out_buf`. -/
def serializeBuf (h : StrHeap) (m : Mem) (outBufSize : Nat) :
    List FieldInfo → List Char → Option (Int × List Char)
  | [], buf => some (0, buf)
  | f :: fs, buf =>
    match record io h m f with
    | none => serializeBuf h m outBufSize fs buf
    | some temp =>
      (strlen buf).bind fun len =>
        if len + temp.length ≥ outBufSize then some (-3, buf)
        else (strcat buf temp).bind (serializeBuf h m outBufSize fs)

/-- `hk_serialize`: the return value and `out_buf`, which is `none` for NULL. -/
def hkSerializeBuf (st : State) (pluginId : Nat) (typeName : CStr) (outBuf : Option (List Char))
    (outBufSize : Nat) : Option (Int × Option (List Char)) :=
  match findRegistered st pluginId typeName with
  | .error _ => none
  | .ok none => some (-1, outBuf)
  | .ok (some (_, reg)) =>
    match outBuf with
    | none => some (-2, none)
    | some buf =>
      (put buf 0 [nul]).bind fun buf =>
        (serializeBuf io st.strs reg.dInstance outBufSize reg.typeInfo.fields buf).map fun p =>
          (p.1, some p.2)

/-! ## The text in the buffer -/

variable {io} {h : StrHeap} {m : Mem} {n : Nat} {buf : List Char} {s : CStr}

theorem nul_not_mem_record {f : FieldInfo} {t : CStr} (ht : record io h m f = some t) :
    nul ∉ t := by
  obtain ⟨v, -, rfl⟩ := Option.map_eq_some_iff.mp ht
  exact nul_not_mem_cstr _

/-- The loop goes on with the buffer that the fields before left, unless it has returned. -/
theorem serializeBuf_append (fs gs : List FieldInfo) (buf : List Char) :
    serializeBuf io h m n (fs ++ gs) buf =
      (serializeBuf io h m n fs buf).bind fun p =>
        if p.1 = 0 then serializeBuf io h m n gs p.2 else some p := by
  induction fs generalizing buf with
  | nil => rfl
  | cons f fs ih =>
    rw [List.cons_append, serializeBuf, serializeBuf]
    cases record io h m f with
    | none => exact ih buf
    | some temp =>
      cases strlen buf with
      | none => rfl
      | some len =>
        simp only [Option.bind_some]
        split
        · rfl
        · rw [Option.bind_assoc]
          congr 1
          funext buf'
          exact ih buf'

/-- **The loop on the buffer.** Its test leaves room for the NUL, so the buffer holds the text of
`serializeLoop` at the end. -/
theorem serializeBuf_holds (fs : List FieldInfo) (hb : CoreCDTL.Holds n s buf) :
    ∃ buf', serializeBuf io h m n fs buf = some ((serializeLoop io h m n fs s).1, buf') ∧
      CoreCDTL.Holds n (serializeLoop io h m n fs s).2 buf' := by
  induction fs generalizing s buf with
  | nil => exact ⟨buf, rfl, hb⟩
  | cons f fs ih =>
    unfold serializeBuf serializeLoop
    cases hrec : record io h m f with
    | none => exact ih hb
    | some temp =>
      simp only [hb.strlen_eq, Option.bind_some]
      by_cases hfull : s.length + temp.length ≥ n
      · simp only [if_pos hfull]
        exact ⟨buf, rfl, hb⟩
      · simp only [if_neg hfull]
        obtain ⟨buf₁, h₁, hb₁⟩ := hb.strcat (nul_not_mem_record hrec) (Nat.not_le.mp hfull)
        rw [h₁]
        exact ih hb₁

/-- **`hk_serialize` stays inside its buffer.** It leaves the text of `hkSerialize`, shorter than
the buffer, with its NUL. -/
theorem hkSerializeBuf_eq {st : State} {pid i : Nat} {name : CStr} {reg : RegisteredType}
    (hfind : findRegistered st pid name = .ok (some (i, reg))) (hsize : buf.length = n)
    (hpos : 1 ≤ n) :
    ∃ ret text buf', hkSerialize io st pid name (some n) = .ok (ret, text) ∧
      hkSerializeBuf io st pid name (some buf) n = some (ret, some buf') ∧
      CoreCDTL.Holds n text buf' := by
  obtain ⟨buf₀, h₀, hb₀⟩ := Holds.put_nul hsize hpos
  obtain ⟨buf', hrun, hb'⟩ :=
    @serializeBuf_holds io st.strs reg.dInstance n buf₀ [] reg.typeInfo.fields hb₀
  refine ⟨(serializeLoop io st.strs reg.dInstance n reg.typeInfo.fields []).1, _, buf', ?_, ?_, hb'⟩
  · unfold hkSerialize
    rw [hfind]
  · unfold hkSerializeBuf
    rw [hfind]
    simp only [h₀, Option.bind_some, hrun, Option.map_some]

/-! ## The longest sequence of records that fits -/

/-- The C strings that formatting the fields into `temp` gives. -/
def recordList (io : FloatText) (h : StrHeap) (m : Mem) (fs : List FieldInfo) : List CStr :=
  fs.filterMap (record io h m)

/-- What `hk_serialize` should return and leave behind the text `s` for the records `rs`: all of
them and 0 if they are shorter than the room, else -3 and as many as fit. -/
def Bounded (n : Nat) (s : CStr) (rs : List CStr) (ret : Int) (text : CStr) : Prop :=
  (s ++ rs.flatten).length < n ∧ ret = 0 ∧ text = s ++ rs.flatten ∨
    n ≤ (s ++ rs.flatten).length ∧ ret = -3 ∧
      ∃ k, k < rs.length ∧ text = s ++ (rs.take k).flatten ∧
        n ≤ (s ++ (rs.take (k + 1)).flatten).length

theorem serializeLoop_bounded (fs : List FieldInfo) (hs : s.length < n) :
    Bounded n s (recordList io h m fs) (serializeLoop io h m n fs s).1
      (serializeLoop io h m n fs s).2 := by
  induction fs generalizing s with
  | nil => exact .inl ⟨by simpa [recordList] using hs, rfl, by simp [recordList, serializeLoop]⟩
  | cons f fs ih =>
    unfold serializeLoop
    cases hrec : record io h m f with
    | none =>
      have hlist : recordList io h m (f :: fs) = recordList io h m fs := by
        simp [recordList, hrec]
      rw [hlist]
      exact ih hs
    | some temp =>
      have hlist : recordList io h m (f :: fs) = temp :: recordList io h m fs := by
        simp [recordList, hrec]
      rw [hlist]
      by_cases hfull : s.length + temp.length ≥ n
      · simp only [if_pos hfull]
        refine .inr ⟨?_, rfl, 0, Nat.succ_pos _, by simp, by simpa using hfull⟩
        simp only [List.flatten_cons, List.length_append]
        omega
      · simp only [if_neg hfull]
        have hroom : (s ++ temp).length < n := by
          rw [List.length_append]
          exact Nat.not_le.mp hfull
        rcases ih hroom with ⟨hfit, hret, htext⟩ | ⟨hover, hret, k, hk, htext, hnext⟩
        · refine .inl ⟨?_, hret, ?_⟩
          · rwa [List.flatten_cons, ← List.append_assoc]
          · rw [htext, List.flatten_cons, ← List.append_assoc]
        · refine .inr ⟨?_, hret, k + 1, Nat.succ_lt_succ hk, ?_, ?_⟩
          · rwa [List.flatten_cons, ← List.append_assoc]
          · rw [htext, List.take_succ_cons, List.flatten_cons, ← List.append_assoc]
          · rwa [List.take_succ_cons, List.flatten_cons, ← List.append_assoc]

/-- What the loop appends to a text, it also makes from the empty one. -/
theorem serializeLoop_shift {fs : List FieldInfo} {text : CStr} (hs : s.length < n)
    (hloop : serializeLoop io h m n fs s = (0, text)) :
    ∃ t, text = s ++ t ∧ serializeLoop io h m n fs [] = (0, t) := by
  have hb := @serializeLoop_bounded io h m n s fs hs
  rw [hloop] at hb
  rcases hb with ⟨hfit, -, rfl⟩ | ⟨-, hret, -⟩
  · refine ⟨_, rfl, ?_⟩
    rw [List.length_append] at hfit
    rcases @serializeLoop_bounded io h m n [] fs (Nat.zero_lt_of_lt hs) with
      ⟨-, hret, htext⟩ | ⟨hover, -⟩
    · exact Prod.ext hret htext
    · rw [List.nil_append] at hover
      omega
  · cases hret

/-- **`hk_serialize` is a bounded concatenation.** For every registered type, every instance and
every buffer of at least one byte, whatever it held: wherever the loop stands between two fields,
`out_buf` has a C string shorter than it; at the end that is all records, and 0 is returned, if they
are shorter than the buffer, and else the longest sequence of them that fits, with -3. -/
theorem hk_serialize_bounded (io : FloatText) {st : State} {pid i : Nat} {name : CStr}
    {reg : RegisteredType} (hfind : findRegistered st pid name = .ok (some (i, reg)))
    (hsize : buf.length = n) (hpos : 1 ≤ n) :
    (∃ buf₀, put buf 0 [nul] = some buf₀ ∧ CoreCDTL.Holds n [] buf₀ ∧
        ∀ fs gs, reg.typeInfo.fields = fs ++ gs →
          ∃ ret text buf', serializeBuf io st.strs reg.dInstance n fs buf₀ = some (ret, buf') ∧
            CoreCDTL.Holds n text buf' ∧ text.length < n ∧
            hkSerializeBuf io st pid name (some buf) n =
              ((if ret = 0 then serializeBuf io st.strs reg.dInstance n gs buf'
                else some (ret, buf')).map fun p => (p.1, some p.2))) ∧
      ∃ ret text buf', hkSerializeBuf io st pid name (some buf) n = some (ret, some buf') ∧
        CoreCDTL.Holds n text buf' ∧ hkSerialize io st pid name (some n) = .ok (ret, text) ∧
        Bounded n [] (recordList io st.strs reg.dInstance reg.typeInfo.fields) ret text := by
  constructor
  · obtain ⟨buf₀, h₀, hb₀⟩ := Holds.put_nul hsize hpos
    refine ⟨buf₀, h₀, hb₀, fun fs gs hfields => ?_⟩
    obtain ⟨buf', hrun, hb'⟩ := @serializeBuf_holds io st.strs reg.dInstance n buf₀ [] fs hb₀
    refine ⟨_, _, buf', hrun, hb', hb'.length_lt, ?_⟩
    unfold hkSerializeBuf
    rw [hfind]
    simp only [h₀, Option.bind_some]
    rw [hfields, serializeBuf_append, hrun, Option.bind_some]
  · obtain ⟨ret, text, buf', htext, hrun, hb'⟩ := @hkSerializeBuf_eq io n buf st pid i name reg
      hfind hsize hpos
    refine ⟨ret, text, buf', hrun, hb', htext, ?_⟩
    have hloop := @serializeLoop_bounded io st.strs reg.dInstance n [] reg.typeInfo.fields hpos
    unfold hkSerialize at htext
    simp only [hfind, Except.ok.injEq] at htext
    rwa [htext] at hloop

/-- A type of two ints, with an instance of zeros. -/
def twoInts : RegisteredType :=
  ⟨1, ⟨['p'], 8, [⟨['a'], .int, 0, 4, none⟩, ⟨['b'], .int, 4, 4, none⟩]⟩, fun _ => 0⟩

/-- The text `a=0;b=0;` needs nine bytes: in eight, whatever they held, the first record is all
there is. -/
theorem hk_serialize_bounded_eight :
    ∃ buf', hkSerializeBuf ⟨fun _ => [], fun _ => 0⟩ ⟨[some twoInts], StrHeap.empty⟩ 1 ['p']
        (some (List.replicate 8 'x')) 8 = some (-3, some buf') ∧
      CoreCDTL.Holds 8 "a=0;".toList buf' := by
  obtain ⟨-, ret, text, buf', hrun, hb, htext, -⟩ :=
    @hk_serialize_bounded 8 (List.replicate 8 'x') ⟨fun _ => [], fun _ => 0⟩
      ⟨[some twoInts], StrHeap.empty⟩ 1 0 ['p'] twoInts rfl List.length_replicate (by decide)
  have hrun' : hkSerialize ⟨fun _ => [], fun _ => 0⟩ ⟨[some twoInts], StrHeap.empty⟩ 1 ['p']
      (some 8) = .ok (-3, "a=0;".toList) := congrArg Except.ok (by decide)
  rw [hrun', Except.ok.injEq, Prod.mk.injEq] at htext
  exact ⟨buf', by rw [hrun, htext.1], htext.2 ▸ hb⟩

/-! ## Records that are whole -/

/-- The record of a field with nothing left out; of a float, what `snprintf` gives. -/
def wholeRecord (io : FloatText) (h : StrHeap) (m : Mem) (f : FieldInfo) : Option CStr :=
  if f.type = .float then record io h m f else (valueText io h m f).map (recordText f.name)

/-- The text has the whole record of every int, bool, char and string field, in field order. -/
def RecordsWhole (io : FloatText) (h : StrHeap) (m : Mem) (fs : List FieldInfo) (text : CStr) :
    Prop :=
  text = (fs.filterMap (wholeRecord io h m)).flatten

/-- A record has room in `temp`, and its value is not the NUL character. Nothing is asked of a
float. -/
def FitsTemp (io : FloatText) (h : StrHeap) (m : Mem) (f : FieldInfo) : Prop :=
  f.type ≠ .float → ∀ v, valueText io h m f = some v →
    (recordText f.name v).length ≤ 255 ∧ (f.type = .char → m f.offset ≠ 0)

/-- The only value with a NUL in its text is the NUL character. -/
theorem nul_mem_valueText {f : FieldInfo} {v : CStr} (hv : valueText io h m f = some v)
    (hf : f.type ≠ .float) : nul ∈ v ↔ f.type = .char ∧ m f.offset = 0 := by
  unfold valueText at hv
  cases ht : f.type with
  | int =>
    rw [ht] at hv
    simp only [Option.some.injEq] at hv
    simp only [← hv, reduceCtorEq, false_and, iff_false]
    exact nul_not_mem_fmtD _
  | float => exact absurd ht hf
  | bool =>
    rw [ht] at hv
    obtain rfl := Option.some.inj hv
    by_cases hb : m f.offset = 0
    · simp only [hb, ne_eq, not_true_eq_false, ↓reduceIte, reduceCtorEq, false_and, iff_false]
      decide
    · simp only [hb, ne_eq, not_false_eq_true, ↓reduceIte, reduceCtorEq, false_and, iff_false]
      decide
  | char =>
    rw [ht] at hv; cases hv
    rw [List.mem_singleton]
    constructor
    · intro hn
      have hb := uint8_char (m f.offset)
      rw [← hn] at hb
      exact ⟨rfl, hb.symm⟩
    · rintro ⟨-, hn⟩
      rw [hn]
      rfl
  | string =>
    rw [ht] at hv; cases hv
    have hn := h.text_nul (m.readPtr f.offset)
    simp only [List.cons_append, List.mem_cons, List.mem_append, List.not_mem_nil, or_false,
      reduceCtorEq, false_and, iff_false, not_or]
    exact ⟨by decide, hn, by decide⟩
  | struct => rw [ht] at hv; cases hv
  | ptr => rw [ht] at hv; cases hv
  | unknown => rw [ht] at hv; cases hv

theorem record_eq_whole_iff {f : FieldInfo} (hname : nul ∉ f.name) :
    record io h m f = wholeRecord io h m f ↔ FitsTemp io h m f := by
  unfold wholeRecord FitsTemp record
  by_cases hf : f.type = .float
  · rw [if_pos hf]
    exact iff_of_true rfl fun hne => absurd hf hne
  rw [if_neg hf]
  cases hv : valueText io h m f with
  | none => simp [hf]
  | some v =>
    have hnul : nul ∈ recordText f.name v ↔ nul ∈ v := by
      have h₁ : nul ≠ '=' := by decide
      have h₂ : nul ≠ ';' := by decide
      simp [recordText, hname, h₁, h₂]
    simp only [Option.map_some, Option.some.injEq, snprintf_eq_iff (show 0 < 256 by decide), hnul,
      nul_mem_valueText hv hf, forall_eq', ne_eq, hf, not_false_eq_true, true_implies]
    constructor
    · rintro ⟨hn, hl⟩
      exact ⟨Nat.le_of_lt_succ hl, fun ht h0 => hn ⟨ht, h0⟩⟩
    · rintro ⟨hl, hn⟩
      exact ⟨fun hc => hn hc.1 hc.2, Nat.lt_succ_of_le hl⟩

theorem record_prefix_whole (f : FieldInfo) :
    Option.Rel (· <+: ·) (record io h m f) (wholeRecord io h m f) := by
  unfold wholeRecord record
  split
  · cases valueText io h m f with
    | none => exact .none
    | some v => exact .some (List.prefix_refl _)
  · cases valueText io h m f with
    | none => exact .none
    | some v => exact .some (snprintf_isPrefix _ _)

/-- **When nothing is dropped.** For every registered type, every instance and every size of the
buffer: when `hk_serialize` returns 0, the text has the whole record of every int, bool, char and
string field, in field order, if and only if each of these records has at most 255 characters and
no `char` field is NUL. -/
theorem hk_serialize_whole_iff (io : FloatText) {st : State} {pid size i : Nat} {name text : CStr}
    {reg : RegisteredType} (hfind : findRegistered st pid name = .ok (some (i, reg)))
    (hnames : ∀ f ∈ reg.typeInfo.fields, nul ∉ f.name)
    (hs : hkSerialize io st pid name (some size) = .ok (0, text)) :
    RecordsWhole io st.strs reg.dInstance reg.typeInfo.fields text ↔
      ∀ f ∈ reg.typeInfo.fields, FitsTemp io st.strs reg.dInstance f := by
  unfold RecordsWhole
  rw [hkSerialize_records io hfind hs, records,
    flatten_filterMap_eq_iff fun f _ => record_prefix_whole f]
  exact forall₂_congr fun f hf => record_eq_whole_iff (hnames f hf)

/-- The records of the two ints. -/
theorem hk_serialize_whole_iff_twoInts :
    RecordsWhole ⟨fun _ => [], fun _ => 0⟩ StrHeap.empty twoInts.dInstance twoInts.typeInfo.fields
      "a=0;b=0;".toList := by
  have hfits : ∀ f ∈ twoInts.typeInfo.fields,
      record ⟨fun _ => [], fun _ => 0⟩ StrHeap.empty twoInts.dInstance f =
        wholeRecord ⟨fun _ => [], fun _ => 0⟩ StrHeap.empty twoInts.dInstance f := by decide
  have hnames : ∀ f ∈ twoInts.typeInfo.fields, nul ∉ f.name := by decide
  exact (@hk_serialize_whole_iff ⟨fun _ => [], fun _ => 0⟩ ⟨[some twoInts], StrHeap.empty⟩ 1 9 0
    ['p'] _ twoInts rfl hnames (congrArg Except.ok (by decide))).mpr fun f hf =>
      (record_eq_whole_iff (hnames f hf)).mp (hfits f hf)

/-- One string in memory, of 300 characters. -/
def longString : StrHeap where
  str a := if a = 1 then List.replicate 300 'a' else []
  brk := 2
  str_nul a := by
    split
    · exact fun h => absurd (List.eq_of_mem_replicate h) (by decide)
    · exact List.not_mem_nil
  brk_pos := by decide

/-- A type with a string and a char. -/
def note : TypeInfo :=
  ⟨['p'], 9, [⟨['s'], .string, 0, 8, none⟩, ⟨['c'], .char, 8, 1, none⟩]⟩

/-- An instance: the address of its string and its character. -/
def noteInstance (s c : UInt8) : Mem := fun i => if i = 0 then s else if i = 8 then c else 0

/-- **Values that are cut.** A string of 300 characters with the char `A`, and an empty string with
the char NUL: `hk_serialize` returns 0 for both into 1024 bytes; the quote and the `;` of the string
are missing in the one text, the character and the `;` of the char in the other. -/
theorem hk_serialize_cuts :
    (∃ text, hkSerialize ⟨fun _ => [], fun _ => 0⟩ ⟨[some ⟨1, note, noteInstance 1 65⟩], longString⟩
        1 ['p'] (some 1024) = .ok (0, text) ∧
      text = 's' :: '=' :: '"' :: (List.replicate 252 'a' ++ "c=A;".toList) ∧
      ¬ RecordsWhole ⟨fun _ => [], fun _ => 0⟩ longString (noteInstance 1 65) note.fields text) ∧
    ∃ text, hkSerialize ⟨fun _ => [], fun _ => 0⟩ ⟨[some ⟨1, note, noteInstance 0 0⟩], longString⟩
        1 ['p'] (some 1024) = .ok (0, text) ∧
      text = "s=\"\";c=".toList ∧
      ¬ RecordsWhole ⟨fun _ => [], fun _ => 0⟩ longString (noteInstance 0 0) note.fields text := by
  refine ⟨⟨_, congrArg Except.ok ?_, rfl, ?_⟩, _, congrArg Except.ok ?_, rfl, ?_⟩
  · decide +kernel
  · unfold RecordsWhole
    decide +kernel
  · decide +kernel
  · unfold RecordsWhole
    decide +kernel

end HeapKit
end CoreCDTL
