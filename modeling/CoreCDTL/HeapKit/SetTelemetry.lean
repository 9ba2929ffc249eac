import CoreCDTL.Gateway.Dispatcher
import CoreCDTL.HeapKit.Fields
import CoreCDTL.HeapKit.RoundTrip

/-!
# HeapKit: the messages of `hk_set_field`

With a gateway connected, `hk_set_field` sends the record of the new value. It goes through
`temp_value[127]` and `msg[512]`, so what arrives may be cut off.

* **Values that are cut off.** `decodeValue_take`: the first characters of the text of a value stand
  for it if they are all of the text, or if the value is 0, false or the empty string.
* **The client** holds an instance of the type and passes what it gets of a record to
  `hk_deserialize`. `setPart_message`: it gets the first `survives` characters.
* **The calls.** `telemetry`: one step is a store into a field of a type that has a text, with its
  message given to the client. `Linked.step` is what a step does to the two instances.
* `SameValues`: the two instances have the same values. `set_telemetry_iff`: they do so after each call
  exactly when each record `Arrives`.
-/

namespace CoreCDTL
namespace HeapKit

open Dispatcher (safeBuf)

/-! ## Values that are cut off -/

/-- 0, false and the empty string. -/
def Value.IsZero : Value → Prop
  | .int n => n = 0
  | .bool b => b = false
  | .string s => s = []
  | .float _ | .char _ => False

/-- A text that goes on as it begins has one character only. -/
theorem eq_of_eq_cons_take {c : Char} {s : CStr} {j : Nat} (h : s = c :: s.take j) :
    ∀ i, i < s.length → s[i]? = some c := by
  intro i
  induction i with
  | zero =>
    intro _
    rw [h]
    rfl
  | succ i ih =>
    intro hi
    have hlen : s.length = (s.take j).length + 1 := congrArg List.length h
    rw [List.length_take] at hlen
    have hnext : s[i + 1]? = (c :: s.take j)[i + 1]? := congrArg (·[i + 1]?) h
    rw [hnext, List.getElem?_cons_succ, List.getElem?_take_of_lt (by omega)]
    exact ih (by omega)

/-- A quoted text whose end is lost. -/
theorem unquote_take (s : CStr) (k : Nat) :
    unquote (('"' :: s ++ ['"']).take k) = s ↔ ('"' :: s ++ ['"']).length ≤ k ∨ s = [] := by
  have hlen : ('"' :: s ++ ['"']).length = s.length + 2 := by simp
  by_cases hk : s.length + 2 ≤ k
  · rw [List.take_of_length_le (by omega), unquote_quoted, hlen]
    exact iff_of_true rfl (.inl hk)
  rw [hlen, or_iff_right hk]
  cases k with
  | zero => exact eq_comm
  | succ j =>
    have hcut : ('"' :: s ++ ['"']).take (j + 1) = '"' :: s.take j := by
      rw [List.cons_append, List.take_succ_cons, List.take_append_of_le_length (by omega)]
    rw [hcut]
    constructor
    · intro h
      unfold unquote at h
      split at h
      · -- Both quotes are taken off, and one of them is a character of `s`.
        have := congrArg List.length h
        simp only [List.length_take, List.drop_succ_cons, List.drop_zero, List.length_cons] at this
        exact List.length_eq_zero_iff.mp (by omega)
      · -- The opening quote stays, so `s` would have to be made of quotes.
        rename_i hlast
        have hall := eq_of_eq_cons_take h.symm
        refine absurd ⟨rfl, ?_⟩ hlast
        rw [h, List.getLast?_eq_getElem?]
        apply hall
        have : 0 < s.length := by rw [← h]; exact Nat.succ_pos _
        omega
    · rintro rfl
      rw [List.take_nil]
      decide

/-- **A value that is cut off.** -/
theorem decodeValue_take (io : FloatText) {h : StrHeap} {m : Mem} {f : FieldInfo} {v : Value}
    (hv : readField h m f = some v) (hf : f.type ≠ .float)
    (hchar : f.type = .char → Char.ofNat (m f.offset).toNat ≠ nul) (k : Nat) :
    decodeValue io f.type ((encodeValue io v).take k) = some v ↔
      (encodeValue io v).length ≤ k ∨ v.IsZero := by
  unfold readField at hv
  cases ht : f.type with
  | int =>
    rw [ht] at hv
    cases hv
    have hr := m.readInt_range f.offset
    simp only [decodeValue, encodeValue, Value.IsZero, Option.some.injEq, Value.int.injEq]
    exact atoi_take_fmtD hr.1 hr.2 k
  | float => exact absurd ht hf
  | bool =>
    rw [ht] at hv
    cases hv
    simp only [decodeValue, encodeValue, Value.IsZero, Option.some.injEq, Value.bool.injEq]
    by_cases hb : m f.offset = 0
    · have hne : ['f', 'a', 'l', 's', 'e'].take k ≠ ['t', 'r', 'u', 'e'] := by
        cases k with
        | zero => exact Ne.symm (List.cons_ne_nil _ _)
        | succ k => exact fun h => absurd (List.cons.inj h).1 (by decide)
      simp [hb, hne]
    · have hcut : ['t', 'r', 'u', 'e'].take k = ['t', 'r', 'u', 'e'] ↔ 4 ≤ k := by
        refine ⟨fun h => ?_, fun h => List.take_of_length_le h⟩
        have := congrArg List.length h
        simp only [List.length_take, List.length_cons, List.length_nil] at this
        omega
      simp [hb, hcut]
  | char =>
    rw [ht] at hv
    cases hv
    simp only [decodeValue, encodeValue, Value.IsZero, Option.some.injEq, Value.char.injEq, or_false]
    cases k with
    | zero =>
      refine iff_of_false (fun h => hchar ht ?_) (by simp)
      rw [← h]
      rfl
    | succ k =>
      refine iff_of_true ?_ (Nat.succ_le_succ (Nat.zero_le _))
      rw [List.take_succ_cons, List.headD_cons, uint8_char]
  | string =>
    rw [ht] at hv
    cases hv
    simp only [decodeValue, encodeValue, Value.IsZero, Option.some.injEq, Value.string.injEq]
    exact unquote_take _ k
  | struct => rw [ht] at hv; cases hv
  | ptr => rw [ht] at hv; cases hv
  | unknown => rw [ht] at hv; cases hv

/-! ## The client -/

/-- What stands in front of the record in a `[set]` message. -/
def setPrefix (pluginId : Nat) (typeName : CStr) : CStr :=
  "[set] ".toList ++ fmtD ((pluginId : Int).bmod (2 ^ 32)) ++ " [".toList ++ typeName ++ "] ".toList

/-- The `name=value;` part of a message from the gateway: what is left without the header, the
prefix and the newline at the end. -/
def setPart (pluginId : Nat) (typeName msg : CStr) : CStr :=
  (msg.drop ("[on_data] [hk]\n".toList ++ setPrefix pluginId typeName).length).dropLast

/-- How many characters of a record arrive. -/
def survives (pluginId : Nat) (typeName : CStr) : Nat :=
  min 126 (511 - (setPrefix pluginId typeName).length)

theorem nul_not_mem_setPrefix (pid : Nat) {tn : CStr} (h : nul ∉ tn) : nul ∉ setPrefix pid tn := by
  unfold setPrefix
  simp only [List.mem_append, not_or]
  exact ⟨⟨⟨⟨by decide, nul_not_mem_fmtD _⟩, by decide⟩, h⟩, by decide⟩

theorem nul_not_mem_recordText {name v : CStr} (hn : nul ∉ name) (hv : nul ∉ v) :
    nul ∉ recordText name v := by
  unfold recordText
  simp only [List.mem_append, List.mem_cons, List.not_mem_nil, or_false, not_or]
  exact ⟨hn, by decide, hv, by decide⟩

/-- **What arrives of a record**: its first `survives` characters. -/
theorem setPart_message (pid : Nat) {tn name v : CStr} (ht : nul ∉ tn) (hn : nul ∉ name)
    (hv : nul ∉ v) :
    setPart pid tn (safeBuf .hk (setMessage pid tn name v)) =
      (recordText name v).take (survives pid tn) := by
  set p := setPrefix pid tn with hp
  set r := recordText name v with hr
  have hpn : nul ∉ p := nul_not_mem_setPrefix pid ht
  have hrn : nul ∉ r := nul_not_mem_recordText hn hv
  have hline : setMessage pid tn name v = (p ++ r.take 126).take 511 := by
    have htemp : snprintf 127 r = r.take 126 :=
      cstr_eq_self fun hm => hrn (List.mem_of_mem_take hm)
    have hmsg : nul ∉ p ++ r.take 126 := by
      rw [List.mem_append]
      exact not_or.mpr ⟨hpn, fun hm => hrn (List.mem_of_mem_take hm)⟩
    show snprintf 512 (p ++ snprintf 127 r) = _
    rw [htemp]
    exact cstr_eq_self fun hm => hmsg (List.mem_of_mem_take hm)
  have hbuf : safeBuf .hk (setMessage pid tn name v) =
      "[on_data] [hk]\n".toList ++ ((p ++ r.take 126).take 511 ++ ['\n']) := by
    have hfits : Fits (15 + 511 + 1)
        ("[on_data] [hk]\n".toList ++ (p ++ r.take 126).take 511 ++ ['\n']) := by
      refine Fits.append (Fits.append (by decide) ⟨fun hm => ?_, List.length_take_le _ _⟩)
        (by decide)
      rcases List.mem_append.mp (List.mem_of_mem_take hm) with hm | hm
      · exact hpn hm
      · exact hrn (List.mem_of_mem_take hm)
    have hheader : "[on_data] [".toList ++ Dispatcher.ApiType.hk.apiName ++ "]\n".toList =
        "[on_data] [hk]\n".toList := by decide
    unfold safeBuf
    rw [hheader, hline, hfits.snprintf_eq (by decide), List.append_assoc]
  unfold setPart survives
  rw [hbuf, List.length_append, ← List.drop_drop, List.drop_left, ← hp]
  by_cases hlen : p.length ≤ 511
  · have hcut : (p ++ r.take 126).take 511 = p ++ r.take (min 126 (511 - p.length)) := by
      rw [List.take_append, List.take_of_length_le hlen, List.take_take, Nat.min_comm]
    rw [hcut, List.append_assoc, List.drop_left, List.dropLast_concat]
  · -- The prefix fills the buffer.
    have hdrop : ((p ++ r.take 126).take 511 ++ ['\n']).drop p.length = [] := by
      apply List.drop_eq_nil_of_le
      have := List.length_take_le 511 (p ++ r.take 126)
      rw [List.length_append, List.length_singleton]
      omega
    rw [hdrop, show 511 - p.length = 0 by omega, Nat.min_zero, List.take_zero, List.dropLast_nil]

/-- The tokens of a record that is cut off. -/
theorem tokens_cut {name v : CStr} (hn : ';' ∉ name) (hv : ';' ∉ v) (n : Nat) :
    tokens (· = ';') ((recordText name v).take n) =
      if (name ++ '=' :: v).take n = [] then [] else [(name ++ '=' :: v).take n] := by
  set body := name ++ '=' :: v with hbody
  have hrec : recordText name v = body ++ [';'] := by simp [recordText, hbody]
  have hclean : ∀ c ∈ body, decide (c = ';') = false := by
    intro c hc
    rw [decide_eq_false_iff_not]
    rintro rfl
    simp only [hbody, List.mem_append, List.mem_cons] at hc
    rcases hc with hc | hc | hc
    · exact hn hc
    · exact absurd hc (by decide)
    · exact hv hc
  rw [hrec]
  by_cases hlen : n ≤ body.length
  · rw [List.take_append_of_le_length hlen]
    split
    · rename_i hnil
      rw [hnil]
      rfl
    · rename_i hne
      exact tokens_piece hne fun c hc => hclean c (List.mem_of_mem_take hc)
  · have hne : body ≠ [] := by simp [hbody]
    rw [List.take_of_length_le (by rw [List.length_append, List.length_singleton]; omega),
      List.take_of_length_le (by omega), if_neg hne, tokens_append hne hclean (by decide)]
    rfl

/-- **What `hk_deserialize` makes of a record that is cut off.** Without the `=` nothing; else it
stores what is left of the value. -/
theorem foldl_applyToken_cut (io : FloatText) {fields : List FieldInfo} (hc : Codable fields)
    {f : FieldInfo} (hf : f ∈ fields) {v : CStr} (hv : ';' ∉ v) (n : Nat) (s : Mem × StrHeap) :
    (tokens (· = ';') ((recordText f.name v).take n)).foldl (applyToken io fields) s =
      if f.name.length < n then storeField io f (v.take (n - f.name.length - 1)) s else s := by
  rw [tokens_cut (hc.noSemi f hf) hv]
  by_cases hn : f.name.length < n
  · obtain ⟨k, hk⟩ := Nat.exists_eq_add_of_lt hn
    have hcut : (f.name ++ '=' :: v).take n = f.name ++ '=' :: v.take (n - f.name.length - 1) := by
      rw [List.take_append, List.take_of_length_le (by omega),
        show n - f.name.length = k + 1 by omega, List.take_succ_cons, Nat.add_sub_cancel]
    rw [if_pos hn, hcut, if_neg (by simp), List.foldl_cons, List.foldl_nil,
      applyToken_record hc hf]
  · have hcut : (f.name ++ '=' :: v).take n = f.name.take n :=
      List.take_append_of_le_length (by omega)
    rw [if_neg hn, hcut]
    split
    · rfl
    · have hno : strchr '=' (f.name.take n) = none :=
        if_neg fun hm => hc.noEq f hf (List.mem_of_mem_take hm)
      rw [List.foldl_cons, List.foldl_nil, applyToken, hno]

/-! ## The calls -/

/-- The argument `value` as a field at offset 0 of its memory. -/
def FieldInfo.atValue (f : FieldInfo) : FieldInfo := { f with offset := 0 }

/-- A store into an int, bool, char or string field: no NUL or `;` char, no string with a `;`. -/
structure SetCall (h : StrHeap) (fields : List FieldInfo) where
  field : FieldInfo
  value : Mem
  mem : field ∈ fields
  kind : field.type ∈ [FieldType.int, .bool, .char, .string]
  carried : Carried h value field.atValue

namespace SetCall

variable {h : StrHeap} {fields : List FieldInfo} (c : SetCall h fields)

/-- The instance with the value in the field. -/
def write (m : Mem) : Mem := m.write c.field.offset (c.value.read 0 c.field.size)

/-- The value that is stored. -/
def val : Value := (readField h c.value c.field.atValue).getD (.int 0)

theorem not_float : c.field.type ≠ .float := by
  intro e
  have := c.kind
  rw [e] at this
  exact absurd this (by decide)

theorem readField_val : readField h c.value c.field.atValue = some c.val := by
  unfold val
  have hk := c.kind
  cases ht : c.field.type with
  | int | bool | char | string => simp [readField, FieldInfo.atValue, ht]
  | float | struct | ptr | unknown =>
    rw [ht] at hk
    exact absurd hk (by decide)

theorem valueText_val (io : FloatText) :
    valueText io h c.value c.field.atValue = some (encodeValue io c.val) := by
  rw [valueText_eq, c.readField_val]
  rfl

/-- The text of the value has no NUL and no `;`. -/
theorem text_clean (io : FloatText) :
    nul ∉ encodeValue io c.val ∧ ';' ∉ encodeValue io c.val := by
  have hfloat : c.field.atValue.type ≠ .float := c.not_float
  constructor
  · exact not_mem_valueText (by decide) (by decide) hfloat (fun ht => (c.carried.1 ht).1)
      (fun _ => h.text_nul _) (c.valueText_val io)
  · exact not_mem_valueText (by decide) (by decide) hfloat (fun ht => (c.carried.1 ht).2)
      c.carried.2 (c.valueText_val io)

end SetCall

/-- The core and a client with an instance of the type of its own. -/
structure Session where
  core : State
  client : State

section Session

variable (io : FloatText) (pid : Nat) (tn : CStr) {h : StrHeap} {fields : List FieldInfo}

/-- The client gets a message. -/
def clientStep (client : State) (msg : CStr) : Option State :=
  match hkDeserialize io client pid tn (some (setPart pid tn (safeBuf .hk msg))) with
  | .error _ => none
  | .ok (_, client) => some client

/-- A call of `hk_set_field` with the gateway connected; the client gets its messages. -/
def Session.step (c : SetCall h fields) (x : Session) : Option Session :=
  match hkSetField io true x.core pid tn c.field.name c.value with
  | .error _ => none
  | .ok (_, core, sent) => (sent.foldlM (clientStep io pid tn) x.client).map fun s => ⟨core, s⟩

def telemetry (h : StrHeap) (fields : List FieldInfo) : Machine Session (SetCall h fields) :=
  ⟨Session.step io pid tn⟩

/-- The two instances of the type have the same value in each field. -/
def SameValues (x : Session) : Prop :=
  ∃ i reg j reg', findRegistered x.core pid tn = .ok (some (i, reg)) ∧
    findRegistered x.client pid tn = .ok (some (j, reg')) ∧
    ∀ f ∈ reg.typeInfo.fields,
      readField x.client.strs reg'.dInstance f = readField x.core.strs reg.dInstance f

/-- The value of a field of the type. -/
def State.fieldValue (st : State) (f : FieldInfo) : Option Value :=
  match findRegistered st pid tn with
  | .ok (some (_, reg)) => readField st.strs reg.dInstance f
  | _ => none

/-- What arrives of the record gives the value: the `=` arrives, and either the whole text of the
value, or the value is 0, false or the empty string; or the `=` does not arrive, and the field has
the value already. -/
def Arrives (st : State) (c : SetCall h fields) : Prop :=
  if c.field.name.length < survives pid tn then
    c.field.name.length + 1 + (encodeValue io c.val).length ≤ survives pid tn ∨ c.val.IsZero
  else st.fieldValue pid tn c.field = some c.val

end Session

/-! ## One call -/

/-- The loop of `hk_set_field` at the field that it finds. -/
theorem setFieldLoop_text (io : FloatText) {h : StrHeap} {pid : Nat} {tn fn : CStr} {value : Mem}
    {fs : List FieldInfo} {f : FieldInfo} (hf : (fs.find? fun g => g.name = fn) = some f)
    {v : CStr} (hv : valueText io h value f.atValue = some v) (m : Mem) :
    setFieldLoop io true h pid tn fn value fs m =
      (0, m.write f.offset (value.read 0 f.size), [setMessage pid tn f.name v]) := by
  induction fs with
  | nil => cases hf
  | cons g fs ih =>
    unfold setFieldLoop
    by_cases hg : g.name = fn
    · rw [List.find?_cons_of_pos (by simpa using hg)] at hf
      cases hf
      unfold FieldInfo.atValue at hv
      simp only [if_pos hg, if_true, hv]
    · rw [List.find?_cons_of_neg (by simpa using hg)] at hf
      rw [if_neg hg]
      exact ih hf

/-- A store into one field of a type: the others keep their values, and no string is dangling. -/
theorem storeField_fields (io : FloatText) {fields : List FieldInfo} (hc : Codable fields)
    {f : FieldInfo} (hf : f ∈ fields) {w : CStr} (hw : nul ∉ w) {m : Mem} {h : StrHeap}
    (hptrs : ∀ g ∈ fields, g.type = .string → m.readPtr g.offset < h.brk)
    (hroom : h.brk < 2 ^ 64) {s : Mem × StrHeap} (hs : s = storeField io f w (m, h)) :
    s.2.brk ≤ h.brk + 1 ∧ (∀ g ∈ fields, g.type = .string → s.1.readPtr g.offset < s.2.brk) ∧
      readField s.2 s.1 f = decodeValue io f.type w ∧
      ∀ g ∈ fields, g ≠ f → readField s.2 s.1 g = readField h m g := by
  have hframe := @storeField_frame io f w (m, h)
  have hread := @readField_storeField io f w (m, h) hw hroom
  have hother : ∀ g ∈ fields, g ≠ f →
      readField (storeField io f w (m, h)).2 (storeField io f w (m, h)).1 g = readField h m g ∧
        StringValid (storeField io f w (m, h)).2 (storeField io f w (m, h)).1 g :=
    fun g hg hne => storeField_other io (hc.apart.forall hf hg (Ne.symm hne)) (hptrs g hg)
  rw [← hs] at hframe hread hother
  refine ⟨hframe.2.2.1, fun g hg => ?_, hread.1, fun g hg hne => (hother g hg hne).1⟩
  by_cases hgf : g = f
  · rw [hgf]
    exact hread.2
  · exact (hother g hg hgf).2

/-- The two instances `m` and `m'` of a type in a session that began with the strings `h`. -/
structure Linked (h : StrHeap) (pid : Nat) (tn : CStr) (i : Nat) (reg : RegisteredType)
    (x : Session) (m m' : Mem) : Prop where
  core : findRegistered x.core pid tn = .ok (some (i, { reg with dInstance := m }))
  client : findRegistered x.client pid tn = .ok (some (i, { reg with dInstance := m' }))
  strs : x.core.strs = h
  ptrs : ∀ f ∈ reg.typeInfo.fields, f.type = .string → m'.readPtr f.offset < x.client.strs.brk

section Step

variable (io : FloatText) {h : StrHeap} {pid i : Nat} {tn : CStr} {reg : RegisteredType}
  {x : Session} {m m' : Mem} (hx : Linked h pid tn i reg x m m')
  (hc : Codable reg.typeInfo.fields)
  (hsize : ∀ f ∈ reg.typeInfo.fields, f.size = hkTypeSize f.type)
include hx hc hsize

/-- The core writes the value into the field and sends its record. -/
theorem Linked.set (c : SetCall h reg.typeInfo.fields) :
    ∃ core', hkSetField io true x.core pid tn c.field.name c.value =
        .ok (0, core', [setMessage pid tn c.field.name (encodeValue io c.val)]) ∧
      core'.strs = h ∧
      findRegistered core' pid tn = .ok (some (i, { reg with dInstance := c.write m })) ∧
      readField h (c.write m) c.field = some c.val ∧
      ∀ g ∈ reg.typeInfo.fields, g ≠ c.field → readField h (c.write m) g = readField h m g := by
  have hfind : (reg.typeInfo.fields.find? fun g => g.name = c.field.name) = some c.field :=
    find_name hc.distinct c.mem
  have hloop : setFieldLoop io true h pid tn c.field.name c.value reg.typeInfo.fields m =
      (0, c.write m, [setMessage pid tn c.field.name (encodeValue io c.val)]) :=
    setFieldLoop_text io hfind (c.valueText_val io) m
  refine ⟨{ x.core with registry := x.core.registry.set i (some { reg with
    dInstance := c.write m }) }, ?_, hx.strs, findSlot_set hx.core rfl rfl, ?_,
    fun g hg hne => ?_⟩
  · unfold hkSetField
    rw [hx.core]
    simp only [hx.strs, hloop]
  · rw [← c.readField_val]
    refine readField_shift rfl (fun n hn => ?_) fun _ => rfl
    exact Mem.read_write_copy m c.value _ (by rw [hsize c.field c.mem]; exact hn)
  · have hap : c.field.Apart g := hc.apart.forall c.mem hg (Ne.symm hne)
    refine readField_congr (fun n hn => Mem.read_congr fun j h₁ h₂ => ?_) fun _ => rfl
    apply write_frame
    · simp [Mem.read, hsize c.field c.mem]
    · exact fun hocc => hap j hocc ⟨h₁, by omega⟩

omit hsize in
/-- The client stores what arrives. -/
theorem Linked.receive (ht : nul ∉ tn) (hroom : x.client.strs.brk < 2 ^ 64)
    (c : SetCall h reg.typeInfo.fields) :
    ∃ client' m'', clientStep io pid tn x.client
        (setMessage pid tn c.field.name (encodeValue io c.val)) = some client' ∧
      findRegistered client' pid tn = .ok (some (i, { reg with dInstance := m'' })) ∧
      client'.strs.brk ≤ x.client.strs.brk + 1 ∧
      (∀ f ∈ reg.typeInfo.fields, f.type = .string → m''.readPtr f.offset < client'.strs.brk) ∧
      readField client'.strs m'' c.field = (if c.field.name.length < survives pid tn then
        decodeValue io c.field.type
          ((encodeValue io c.val).take (survives pid tn - c.field.name.length - 1))
        else readField x.client.strs m' c.field) ∧
      ∀ g ∈ reg.typeInfo.fields, g ≠ c.field →
        readField client'.strs m'' g = readField x.client.strs m' g := by
  obtain ⟨hnul, hsemi⟩ := c.text_clean io
  set v := encodeValue io c.val with hv
  set n := survives pid tn with hn
  obtain ⟨s, hs⟩ : ∃ s, s = (if c.field.name.length < n then
    storeField io c.field (v.take (n - c.field.name.length - 1)) (m', x.client.strs)
    else (m', x.client.strs)) := ⟨_, rfl⟩
  have hpart : setPart pid tn (safeBuf .hk (setMessage pid tn c.field.name v)) =
      (recordText c.field.name v).take n :=
    setPart_message pid ht (hc.noNul c.field c.mem) hnul
  have hbuf : strncpy 1024 ((recordText c.field.name v).take n) =
      (recordText c.field.name v).take n := by
    apply List.take_of_length_le
    have h₁ := List.length_take_le n (recordText c.field.name v)
    have h₂ : n ≤ 126 := Nat.min_le_left _ _
    omega
  have hfold : (tokens (· = ';') (strncpy 1024 ((recordText c.field.name v).take n))).foldl
      (applyToken io reg.typeInfo.fields) (m', x.client.strs) = s := by
    rw [hbuf, hs]
    exact foldl_applyToken_cut io hc c.mem hsemi n (m', x.client.strs)
  refine ⟨⟨x.client.registry.set i (some { reg with dInstance := s.1 }), s.2⟩, s.1, ?_,
    findSlot_set hx.client rfl rfl, ?_⟩
  · unfold clientStep hkDeserialize
    rw [hx.client, hpart]
    simp only [hfold]
  by_cases hlt : c.field.name.length < n
  · rw [if_pos hlt] at hs
    rw [if_pos hlt]
    set w := v.take (n - c.field.name.length - 1) with hw
    have hwn : nul ∉ w := fun hm => hnul (List.mem_of_mem_take hm)
    exact storeField_fields io hc c.mem hwn hx.ptrs hroom hs
  · rw [if_neg hlt] at hs
    rw [if_neg hlt, hs]
    exact ⟨Nat.le_succ _, hx.ptrs, rfl, fun _ _ _ => rfl⟩

/-- **One call**: the two instances afterwards. -/
theorem Linked.step (ht : nul ∉ tn) (hroom : x.client.strs.brk < 2 ^ 64)
    (c : SetCall h reg.typeInfo.fields) :
    ∃ x' m₁ m₁', (telemetry io pid tn h reg.typeInfo.fields).step c x = some x' ∧
      Linked h pid tn i reg x' m₁ m₁' ∧ x'.client.strs.brk ≤ x.client.strs.brk + 1 ∧
      readField h m₁ c.field = some c.val ∧
      readField x'.client.strs m₁' c.field = (if c.field.name.length < survives pid tn then
        decodeValue io c.field.type
          ((encodeValue io c.val).take (survives pid tn - c.field.name.length - 1))
        else readField x.client.strs m' c.field) ∧
      ∀ g ∈ reg.typeInfo.fields, g ≠ c.field →
        readField h m₁ g = readField h m g ∧
          readField x'.client.strs m₁' g = readField x.client.strs m' g := by
  obtain ⟨core', hset, hstrs, hcore, hval, hrest⟩ := hx.set io hc hsize c
  obtain ⟨client', m'', hget, hclient, hbrk, hptrs, hval', hrest'⟩ := hx.receive io hc ht hroom c
  refine ⟨⟨core', client'⟩, _, m'', ?_, ⟨hcore, hclient, hstrs, hptrs⟩, hbrk, hval, hval',
    fun g hg hne => ⟨hrest g hg hne, hrest' g hg hne⟩⟩
  show Session.step io pid tn c x = _
  unfold Session.step
  rw [hset]
  simp only [List.foldlM_cons, List.foldlM_nil, hget, Option.bind_eq_bind, Option.bind_some]
  rfl

omit hc hsize in
theorem Linked.sameValues_iff : SameValues pid tn x ↔
    ∀ f ∈ reg.typeInfo.fields, readField x.client.strs m' f = readField h m f := by
  constructor
  · rintro ⟨_, _, _, _, hcore, hclient, hsame⟩
    cases hx.core.symm.trans hcore
    cases hx.client.symm.trans hclient
    rwa [hx.strs] at hsame
  · intro hsame
    refine ⟨_, _, _, _, hx.core, hx.client, ?_⟩
    rwa [hx.strs]

omit hc hsize in
theorem Linked.fieldValue (f : FieldInfo) :
    x.core.fieldValue pid tn f = readField h m f := by
  unfold State.fieldValue
  rw [hx.core, hx.strs]

/-- **One call**, from equal values. -/
theorem Linked.sameValues_step (ht : nul ∉ tn) (hroom : x.client.strs.brk < 2 ^ 64)
    (hsame : SameValues pid tn x) {c : SetCall h reg.typeInfo.fields} {x' : Session}
    (hstep : (telemetry io pid tn h reg.typeInfo.fields).step c x = some x') :
    SameValues pid tn x' ↔ Arrives io pid tn x.core c := by
  obtain ⟨_, m₁, m₁', hstep', hx', -, hval, hval', hrest⟩ := hx.step io hc hsize ht hroom c
  cases hstep'.symm.trans hstep
  rw [hx.sameValues_iff] at hsame
  have hone : SameValues pid tn x' ↔ readField x'.client.strs m₁' c.field = some c.val := by
    rw [hx'.sameValues_iff, ← hval]
    refine ⟨fun h₁ => h₁ c.field c.mem, fun h₁ f hf => ?_⟩
    by_cases hfc : f = c.field
    · rw [hfc]
      exact h₁
    · rw [(hrest f hf hfc).1, (hrest f hf hfc).2]
      exact hsame f hf
  rw [hone, hval']
  unfold Arrives
  by_cases hlt : c.field.name.length < survives pid tn
  · have hcut : (encodeValue io c.val).length ≤ survives pid tn - c.field.name.length - 1 ↔
        c.field.name.length + 1 + (encodeValue io c.val).length ≤ survives pid tn := by
      omega
    rw [if_pos hlt, if_pos hlt, ← hcut]
    exact decodeValue_take io c.readField_val c.not_float (fun ht => (c.carried.1 ht).1) _
  · rw [if_neg hlt, if_neg hlt, hx.fieldValue, hsame c.field c.mem]

/-- The strings of the client have room for a sequence of calls, and each goes through. -/
theorem Linked.run (ht : nul ∉ tn) (calls : List (SetCall h reg.typeInfo.fields))
    (hroom : x.client.strs.brk + calls.length ≤ 2 ^ 64) :
    (telemetry io pid tn h reg.typeInfo.fields).Meets
        (fun y _ => y.client.strs.brk < 2 ^ 64) calls x ∧
      ∃ y, (telemetry io pid tn h reg.typeInfo.fields).run calls x = some y := by
  induction calls generalizing x m m' with
  | nil => exact ⟨trivial, x, rfl⟩
  | cons c calls ih =>
    rw [List.length_cons] at hroom
    have hnow : x.client.strs.brk < 2 ^ 64 := by omega
    obtain ⟨x', m₁, m₁', hstep, hx', hbrk, -⟩ := hx.step io hc hsize ht hnow c
    obtain ⟨hmeets, y, hy⟩ := ih hx' (by omega)
    refine ⟨⟨hnow, fun x'' hx'' => ?_⟩, y, Machine.run_cons_some.mpr ⟨x', hstep, hy⟩⟩
    cases hstep.symm.trans hx''
    exact hmeets

end Step

/-! ## A sequence of calls -/

/-- **The client has the values of the core** after each call of a sequence exactly when each
record arrives. -/
theorem set_telemetry_iff (io : FloatText) {st : State} {pid i : Nat} {tn : CStr}
    {reg : RegisteredType} (hfind : findRegistered st pid tn = .ok (some (i, reg)))
    (ht : nul ∉ tn) (hc : Codable reg.typeInfo.fields)
    (hsize : ∀ f ∈ reg.typeInfo.fields, f.size = hkTypeSize f.type)
    (hptrs : ∀ f ∈ reg.typeInfo.fields, f.type = .string →
      reg.dInstance.readPtr f.offset < st.strs.brk)
    (calls : List (SetCall st.strs reg.typeInfo.fields))
    (hroom : st.strs.brk + calls.length ≤ 2 ^ 64) :
    ∃ y, (telemetry io pid tn st.strs reg.typeInfo.fields).run calls ⟨st, st⟩ = some y ∧
      ((∀ pre x, pre <+: calls →
          (telemetry io pid tn st.strs reg.typeInfo.fields).run pre ⟨st, st⟩ = some x →
          SameValues pid tn x) ↔
        (telemetry io pid tn st.strs reg.typeInfo.fields).Meets
          (fun x c => Arrives io pid tn x.core c) calls ⟨st, st⟩) := by
  have hstart : Linked st.strs pid tn i reg ⟨st, st⟩ reg.dInstance reg.dInstance :=
    ⟨hfind, hfind, rfl, hptrs⟩
  obtain ⟨hmeets, y, hy⟩ := hstart.run io hc hsize ht calls hroom
  refine ⟨y, hy, ?_⟩
  refine Machine.prefixes_iff_meets (I := fun x => ∃ m m', Linked st.strs pid tn i reg x m m')
    ?_ ?_ ⟨_, _, hstart⟩ hmeets (hstart.sameValues_iff.mpr fun _ _ => rfl) hy
  · rintro x c x' ⟨m, m', hx⟩ hnow hstep
    obtain ⟨x'', m₁, m₁', hstep', hx', -⟩ := hx.step io hc hsize ht hnow c
    cases hstep'.symm.trans hstep
    exact ⟨m₁, m₁', hx'⟩
  · rintro x c x' ⟨m, m', hx⟩ hnow hsame hstep
    exact hx.sameValues_step io hc hsize ht hnow hsame hstep

/-- A label of `n` characters. -/
def longLabel (n : Nat) : CStr := List.replicate n 'x'

theorem not_mem_longLabel {c : Char} (hc : c ≠ 'x') (n : Nat) : c ∉ longLabel n :=
  fun h => hc (List.eq_of_mem_replicate h)

/-- A registry with one instance of `sampleType`, and one string in memory, at the address 1. -/
def labelState (n : Nat) : State where
  registry := [some ⟨1, sampleType, fun _ => 0⟩]
  strs :=
    { str := fun a => if a = 1 then longLabel n else []
      brk := 2
      str_nul := fun a => by
        split
        · exact not_mem_longLabel (by decide) n
        · exact List.not_mem_nil
      brk_pos := Nat.two_pos }

/-- The string at the address 1 as the new label. -/
def setLabel (n : Nat) : SetCall (labelState n).strs sampleType.fields where
  field := ⟨"label".toList, .string, 8, 8, none⟩
  value := fun i => if i = 0 then 1 else 0
  mem := by decide
  kind := by decide
  carried := ⟨fun h => absurd h (by decide), fun _ => not_mem_longLabel (by decide) n⟩

/-- 57 as the new id. -/
def setId (n : Nat) : SetCall (labelState n).strs sampleType.fields where
  field := ⟨"id".toList, .int, 0, 4, none⟩
  value := fun i => if i = 0 then 57 else 0
  mem := by decide
  kind := by decide
  carried := ⟨fun h => absurd h (by decide), fun h => absurd h (by decide)⟩

theorem labelState_ptrs (n : Nat) : ∀ f ∈ sampleType.fields, f.type = .string →
    Mem.readPtr (fun _ => 0) f.offset < (labelState n).strs.brk := by
  show ∀ f ∈ sampleType.fields, f.type = .string → Mem.readPtr (fun _ => 0) f.offset < 2
  decide +kernel

theorem sampleType_sizes : ∀ f ∈ sampleType.fields, f.size = hkTypeSize f.type := by decide

theorem setLabel_val (n : Nat) : (setLabel n).val = .string (longLabel n) := by
  have hptr : Mem.readPtr (fun i => if i = 0 then 1 else 0) 0 = 1 := by decide +kernel
  have hread : readField (labelState n).strs (setLabel n).value (setLabel n).field.atValue =
      some (.string ((labelState n).strs.text
        (Mem.readPtr (fun i => if i = 0 then 1 else 0) 0))) := rfl
  unfold SetCall.val
  rw [hread, hptr]
  rfl

theorem setId_val (n : Nat) : (setId n).val = .int 57 := by
  have hint : Mem.readInt (fun i => if i = 0 then 57 else 0) 0 = 57 := by decide +kernel
  have hread : readField (labelState n).strs (setId n).value (setId n).field.atValue =
      some (.int (Mem.readInt (fun i => if i = 0 then 57 else 0) 0)) := rfl
  unfold SetCall.val
  rw [hread, hint]
  rfl

/-- Of a label at most 118 characters arrive. -/
theorem arrives_setLabel {n : Nat} (st : State) :
    Arrives sampleFloat 1 sampleType.name st (setLabel n) ↔ n ≤ 118 := by
  have hsurvives : survives 1 sampleType.name = 126 := by decide +kernel
  have hlen : (encodeValue sampleFloat (Value.string (longLabel n))).length = n + 2 := by
    simp [encodeValue, longLabel]
  have hname : (setLabel n).field.name.length = 5 := rfl
  unfold Arrives
  rw [setLabel_val, hsurvives, hlen, hname, if_pos (by omega)]
  have hzero : Value.IsZero (.string (longLabel n)) ↔ n = 0 := List.replicate_eq_nil_iff _
  rw [hzero]
  omega

theorem arrives_setId (n : Nat) (st : State) :
    Arrives sampleFloat 1 sampleType.name st (setId n) := by
  have hsurvives : survives 1 sampleType.name = 126 := by decide +kernel
  have hlen : (encodeValue sampleFloat (.int 57)).length = 2 := by decide +kernel
  have hname : (setId n).field.name.length = 2 := rfl
  unfold Arrives
  rw [setId_val, hsurvives, hlen, hname, if_pos (by decide)]
  exact .inl (by decide)

/-- An id and a label of two characters arrive. -/
theorem set_telemetry_iff_short :
    ∃ y, (telemetry sampleFloat 1 sampleType.name (labelState 2).strs sampleType.fields).run
        [setId 2, setLabel 2] ⟨labelState 2, labelState 2⟩ = some y ∧
      SameValues 1 sampleType.name y := by
  obtain ⟨y, hy, hiff⟩ := @set_telemetry_iff sampleFloat (labelState 2) 1 0 sampleType.name
    ⟨1, sampleType, fun _ => 0⟩ rfl (by decide) sampleType_codable sampleType_sizes
    (labelState_ptrs 2) [setId 2, setLabel 2] (by decide)
  refine ⟨y, hy, hiff.mpr (Machine.Meets.of_mem (fun x c hc => ?_) _) _ y (List.prefix_refl _) hy⟩
  rcases List.mem_cons.mp hc with rfl | hc
  · exact arrives_setId 2 x.core
  · rw [List.mem_singleton.mp hc]
    exact (arrives_setLabel x.core).mpr (by decide)

/-- **A label of 120 characters.** Its record has 129, of which 126 arrive: the client's label is
another one. -/
theorem long_label_cut :
    (recordText (setLabel 120).field.name (encodeValue sampleFloat (setLabel 120).val)).length =
        129 ∧
      ∃ x, (telemetry sampleFloat 1 sampleType.name (labelState 120).strs sampleType.fields).run
        [setLabel 120] ⟨labelState 120, labelState 120⟩ = some x ∧
        ¬ SameValues 1 sampleType.name x := by
  refine ⟨by rw [setLabel_val]; decide +kernel, ?_⟩
  have hstart : Linked (labelState 120).strs 1 sampleType.name 0 ⟨1, sampleType, fun _ => 0⟩
      ⟨labelState 120, labelState 120⟩ (fun _ => 0) (fun _ => 0) :=
    ⟨rfl, rfl, rfl, labelState_ptrs 120⟩
  obtain ⟨x, m, m', hstep, -⟩ := hstart.step sampleFloat sampleType_codable sampleType_sizes
    (by decide) (by decide) (setLabel 120)
  refine ⟨x, Machine.run_cons_some.mpr ⟨x, hstep, rfl⟩, fun hsame => ?_⟩
  have harrives := (hstart.sameValues_step sampleFloat sampleType_codable sampleType_sizes
    (by decide) (by decide) (hstart.sameValues_iff.mpr fun _ _ => rfl) hstep).mp hsame
  exact absurd ((arrives_setLabel _).mp harrives) (by decide)

end HeapKit
end CoreCDTL
