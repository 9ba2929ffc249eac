import CoreCDTL.HeapKit.Codec
import CoreCDTL.Lib.Machine
import Mathlib.Data.List.Pairwise

/-!
# HeapKit: `hk_set_field` and `hk_get_field`

The registry as a map from a plugin id, a type name and a field name to the bytes of the field.

* **The code.** `hkSetField` and `hkGetField`. With a gateway connected, `hk_set_field` also sends
  the new value; a field of a type without text (`struct`, `ptr`) is stored and the search goes on.
* **The map.** `Log` is the history of the registrations and stores that returned 0, newest first.
  `Log.typeOf` and `Log.lastStored` look a key up in it, `Log.get` is what a read gives.
* **Refinement.** `Refines`: the table agrees with the map. `Refines.step`: every operation runs and
  keeps it. `heapkit_refines_map`: what this means for every sequence of operations.
-/

namespace CoreCDTL
namespace HeapKit

/-! ## The code -/

def GATEWAY_DTLS_MSG_LEN : Nat := 512

/-- The message of `hk_set_field` for the gateway; `v` is the text of the value. -/
def setMessage (pluginId : Nat) (typeName name v : CStr) : CStr :=
  let tempValue := snprintf 127 (recordText name v)
  snprintf GATEWAY_DTLS_MSG_LEN ("[set] ".toList ++ fmtD ((pluginId : Int).bmod (2 ^ 32)) ++
    " [".toList ++ typeName ++ "] ".toList ++ tempValue)

/-- The loop of `hk_set_field` over the fields: the return value, the instance and the messages
sent. `value` is the memory at `value`. -/
def setFieldLoop (io : FloatText) (connected : Bool) (h : StrHeap) (pluginId : Nat)
    (typeName fieldName : CStr) (value : Mem) : List FieldInfo → Mem → Int × Mem × List CStr
  | [], m => (-2, m, [])
  | f :: fs, m =>
    if f.name = fieldName then
      let m := m.write f.offset (value.read 0 f.size)
      if connected then
        match valueText io h value { f with offset := 0 } with
        | none => setFieldLoop io connected h pluginId typeName fieldName value fs m
        | some v => (0, m, [setMessage pluginId typeName f.name v])
      else (0, m, [])
    else setFieldLoop io connected h pluginId typeName fieldName value fs m

/-- `hk_set_field`: the return value, the globals after it and the messages sent. -/
def hkSetField (io : FloatText) (connected : Bool) (st : State) (pluginId : Nat)
    (typeName fieldName : CStr) (value : Mem) : Except Fault (Int × State × List CStr) :=
  match findRegistered st pluginId typeName with
  | .error e => .error e
  | .ok none => .ok (-1, st, [])
  | .ok (some (i, reg)) =>
    let (ret, m, sent) := setFieldLoop io connected st.strs pluginId typeName fieldName value
      reg.typeInfo.fields reg.dInstance
    .ok (ret, { st with registry := st.registry.set i (some { reg with dInstance := m }) }, sent)

/-- `hk_get_field`: the return value and the bytes copied to `out_value`. -/
def hkGetField (st : State) (pluginId : Nat) (typeName fieldName : CStr) :
    Except Fault (Int × Option (List UInt8)) :=
  match findRegistered st pluginId typeName with
  | .error e => .error e
  | .ok none => .ok (-1, none)
  | .ok (some (_, reg)) =>
    match reg.typeInfo.fields.find? fun f => f.name = fieldName with
    | none => .ok (-2, none)
    | some f => .ok (0, some (reg.dInstance.read f.offset f.size))

/-! ## Layout -/

/-- The fields lie one behind the other from offset `o` on. -/
def Packed : Nat → List FieldInfo → Prop
  | _, [] => True
  | o, f :: fs => f.offset = o ∧ Packed (o + f.size) fs

/-- Each field's offset is the sum of the sizes before it, and the type's size that of all. -/
structure TypeInfo.Laid (ti : TypeInfo) : Prop where
  packed : Packed 0 ti.fields
  size : ti.size = (ti.fields.map (·.size)).sum

/-- A type that is laid out. -/
structure LaidType where
  info : TypeInfo
  laid : info.Laid

/-- The field that both functions take for a name. -/
def TypeInfo.field (ti : TypeInfo) (fieldName : CStr) : Option FieldInfo :=
  ti.fields.find? fun f => f.name = fieldName

/-- The byte ranges of two fields are disjoint. -/
def Apart (f g : FieldInfo) : Prop := f.offset + f.size ≤ g.offset ∨ g.offset + g.size ≤ f.offset

instance : Std.Symm Apart := ⟨fun _ _ h => h.symm⟩

theorem Packed.le {o : Nat} {fs : List FieldInfo} (h : Packed o fs) : ∀ f ∈ fs, o ≤ f.offset := by
  induction fs generalizing o with
  | nil => exact fun f hf => nomatch hf
  | cons g fs ih =>
    intro f hf
    rcases List.mem_cons.mp hf with rfl | hf
    · exact Nat.le_of_eq h.1.symm
    · exact Nat.le_trans (Nat.le_add_right o g.size) (ih h.2 f hf)

theorem Packed.pairwise {o : Nat} {fs : List FieldInfo} (h : Packed o fs) : fs.Pairwise Apart := by
  induction fs generalizing o with
  | nil => exact .nil
  | cons f fs ih =>
    refine .cons (fun g hg => ?_) (ih h.2)
    have hle := h.2.le g hg
    have ho := h.1
    exact .inl (by omega)

theorem Packed.concat {o : Nat} {fs : List FieldInfo} (h : Packed o fs) {f : FieldInfo}
    (hf : f.offset = o + (fs.map (·.size)).sum) : Packed o (fs ++ [f]) := by
  induction fs generalizing o with
  | nil => exact ⟨hf, trivial⟩
  | cons g fs ih =>
    refine ⟨h.1, ih h.2 ?_⟩
    rw [hf, List.map_cons, List.sum_cons, Nat.add_assoc]

/-- A field added at the end, as `plugin_data_set` adds it. -/
theorem TypeInfo.Laid.concat {ti : TypeInfo} (h : ti.Laid) {f : FieldInfo}
    (hf : f.offset = ti.size) :
    TypeInfo.Laid { ti with fields := ti.fields ++ [f], size := ti.size + f.size } where
  packed := h.packed.concat (by rw [hf, h.size, Nat.zero_add])
  size := by simp [h.size]

/-- Two names select fields with disjoint bytes. -/
theorem TypeInfo.Laid.apart {ti : TypeInfo} (h : ti.Laid) {a b : CStr} {f g : FieldInfo}
    (hf : ti.field a = some f) (hg : ti.field b = some g) (hab : a ≠ b) : Apart f g := by
  have hfn : f.name = a := by simpa using List.find?_some hf
  have hgn : g.name = b := by simpa using List.find?_some hg
  refine h.packed.pairwise.forall (List.mem_of_find?_eq_some hf) (List.mem_of_find?_eq_some hg) ?_
  rintro rfl
  exact hab (hfn.symm.trans hgn)

/-- Without a gateway, `hk_set_field` writes the bytes of the field that it finds. -/
theorem setFieldLoop_disconnected (io : FloatText) (h : StrHeap) (pluginId : Nat)
    (typeName fieldName : CStr) (value : Mem) (fs : List FieldInfo) (m : Mem) :
    setFieldLoop io false h pluginId typeName fieldName value fs m =
      match fs.find? fun f => f.name = fieldName with
      | none => (-2, m, [])
      | some f => (0, m.write f.offset (value.read 0 f.size), []) := by
  induction fs with
  | nil => rfl
  | cons f fs ih =>
    unfold setFieldLoop
    by_cases hf : f.name = fieldName
    · simp [hf]
    · simp [hf, ih]

/-! ## Search -/

/-- A table whose slots are all in use. -/
def Full (l : List (Option RegisteredType)) : Prop := none ∉ l

section Search

variable {p p' : Nat} {t t' : CStr} {l : List (Option RegisteredType)} {r r' : RegisteredType}

theorem findSlot_cons (p : Nat) (t : CStr) (r : RegisteredType)
    (l : List (Option RegisteredType)) : findSlot p t (some r :: l) =
      if r.pluginId = p ∧ r.typeInfo.name = t then .ok (some (0, r))
      else (findSlot p t l).map (Option.map fun x => (x.1 + 1, x.2)) := rfl

theorem Full.of_cons {s : Option RegisteredType} (h : Full (s :: l)) :
    (∃ r, s = some r) ∧ Full l := by
  refine ⟨Option.ne_none_iff_exists'.mp fun hs => h (hs ▸ List.mem_cons_self), fun hn => ?_⟩
  exact h (List.mem_cons_of_mem _ hn)

/-- The search does not fault in a full table. -/
theorem Full.findSlot_ok (h : Full l) (p : Nat) (t : CStr) : ∃ o, findSlot p t l = .ok o := by
  induction l with
  | nil => exact ⟨none, rfl⟩
  | cons s l ih =>
    obtain ⟨⟨r, rfl⟩, hl⟩ := h.of_cons
    obtain ⟨o, ho⟩ := ih hl
    rw [findSlot_cons, ho]
    split
    · exact ⟨_, rfl⟩
    · exact ⟨_, rfl⟩

/-- The search for another key does not see a new instance of a slot. -/
theorem Full.findSlot_set (h : Full l) {i : Nat} (hi : l[i]? = some (some r))
    (hp : r'.pluginId = r.pluginId) (ht : r'.typeInfo = r.typeInfo)
    (hne : ¬ (r.pluginId = p ∧ r.typeInfo.name = t)) :
    findSlot p t (l.set i (some r')) = findSlot p t l := by
  induction l generalizing i with
  | nil => rfl
  | cons s l ih =>
    obtain ⟨⟨q, rfl⟩, hl⟩ := h.of_cons
    cases i with
    | zero =>
      cases hi
      rw [List.set_cons_zero, findSlot_cons, findSlot_cons, if_neg hne, if_neg (by rwa [hp, ht])]
    | succ i =>
      rw [List.set_cons_succ, findSlot_cons, findSlot_cons, ih hl hi]

/-- The search in a table with one more type. -/
theorem Full.findSlot_append (h : Full l) (p : Nat) (t : CStr) (r : RegisteredType) :
    findSlot p t (l ++ [some r]) =
      match findSlot p t l with
      | .ok none => if r.pluginId = p ∧ r.typeInfo.name = t then .ok (some (l.length, r)) else .ok none
      | o => o := by
  induction l with
  | nil =>
    rw [List.nil_append, findSlot_cons]
    rfl
  | cons s l ih =>
    obtain ⟨⟨q, rfl⟩, hl⟩ := h.of_cons
    obtain ⟨o, ho⟩ := hl.findSlot_ok p t
    rw [List.cons_append, findSlot_cons, findSlot_cons, ih hl, ho]
    by_cases hq : q.pluginId = p ∧ q.typeInfo.name = t
    · simp only [if_pos hq]
    · simp only [if_neg hq]
      cases o with
      | none =>
        by_cases hr : r.pluginId = p ∧ r.typeInfo.name = t
        · simp [if_pos hr, Except.map]
        · simp [if_neg hr, Except.map]
      | some x => simp [Except.map]

end Search

/-! ## The map -/

/-- A registration or a store that returned 0. -/
inductive Event where
  | registered (pluginId : Nat) (ti : TypeInfo)
  | stored (pluginId : Nat) (typeName fieldName : CStr) (value : Mem)

/-- What happened, newest first. -/
abbrev Log := List Event

namespace Log

/-- The type registered under a key. -/
def typeOf (p : Nat) (t : CStr) : Log → Option TypeInfo
  | [] => none
  | .registered p' ti :: log => if p' = p ∧ ti.name = t then some ti else typeOf p t log
  | .stored .. :: log => typeOf p t log

/-- What was last stored in a field; at first it is zero. -/
def lastStored (p : Nat) (t f : CStr) : Log → Mem
  | [] => fun _ => 0
  | .stored p' t' f' value :: log =>
    if p' = p ∧ t' = t ∧ f' = f then value else lastStored p t f log
  | .registered .. :: log => lastStored p t f log

/-- What a read of a field returns. -/
def get (log : Log) (p : Nat) (t f : CStr) : Int × Option (List UInt8) :=
  match log.typeOf p t with
  | none => (-1, none)
  | some ti =>
    match ti.field f with
    | none => (-2, none)
    | some fi => (0, some ((log.lastStored p t f).read 0 fi.size))

end Log

/-! ## The operations -/

/-- An operation of a plugin, without a gateway. -/
inductive Op where
  | register (pluginId : Nat) (info : Option LaidType) (calloc : Bool)
  | set (pluginId : Nat) (typeName fieldName : CStr) (value : Mem)
  | get (pluginId : Nat) (typeName fieldName : CStr)

/-- The globals and the history. -/
structure Logged where
  st : State
  log : Log

/-- At program start. -/
def Logged.init (strs : StrHeap) : Logged := ⟨⟨[], strs⟩, []⟩

/-- The history after an operation that returned `ret`. -/
def Log.after (ret : Int) (e : Option Event) (log : Log) : Log :=
  if ret = 0 then e.toList ++ log else log

def Op.step (io : FloatText) (op : Op) (s : Logged) : Option Logged :=
  match op with
  | register p info calloc =>
    match hkTypeRegister s.st p (info.map (·.info)) calloc with
    | .error _ => none
    | .ok (ret, st) => some ⟨st, s.log.after ret (info.map fun ti => .registered p ti.info)⟩
  | set p t f value =>
    match hkSetField io false s.st p t f value with
    | .error _ => none
    | .ok (ret, st, _) => some ⟨st, s.log.after ret (some (.stored p t f value))⟩
  | get p t f =>
    match hkGetField s.st p t f with
    | .error _ => none
    | .ok _ => some s

/-- HeapKit; an operation that faults has no step. -/
def heapkit (io : FloatText) : Machine Logged Op := ⟨Op.step io⟩

/-! ## Refinement -/

/-- The slot that the search finds for a key holds the type of the map, and the bytes of its fields
are those last stored. -/
def Agrees (log : Log) (registry : List (Option RegisteredType)) (p : Nat) (t : CStr) : Prop :=
  match log.typeOf p t with
  | none => findSlot p t registry = .ok none ∧ ∀ f, log.lastStored p t f = fun _ => 0
  | some ti => ∃ i m, findSlot p t registry = .ok (some (i, ⟨p, ti, m⟩)) ∧ ti.Laid ∧
      ∀ f fi, ti.field f = some fi →
        m.read fi.offset fi.size = (log.lastStored p t f).read 0 fi.size

/-- The table agrees with the map. -/
structure Refines (s : Logged) : Prop where
  full : Full s.st.registry
  holds : ∀ p t, Agrees s.log s.st.registry p t

theorem refines_init (strs : StrHeap) : Refines (Logged.init strs) where
  full := List.not_mem_nil
  holds := fun _ _ => ⟨rfl, fun _ => rfl⟩

/-- The operations that may change what a read of a field gives. -/
def Op.Touches (p : Nat) (t f : CStr) : Op → Prop
  | register p' info _ => ∃ ti, info = some ti ∧ p' = p ∧ ti.info.name = t
  | set p' t' f' _ => p' = p ∧ t' = t ∧ f' = f
  | get .. => False

section Operations

variable {s : Logged} (h : Refines s)
include h

/-- A read gives what the map says. -/
theorem Refines.get (p : Nat) (t f : CStr) : hkGetField s.st p t f = .ok (s.log.get p t f) := by
  have hold := h.holds p t
  unfold Agrees at hold
  unfold hkGetField findRegistered Log.get
  cases htype : s.log.typeOf p t with
  | none =>
    rw [htype] at hold
    rw [hold.1]
  | some ti =>
    rw [htype] at hold
    obtain ⟨i, m, hfind, -, hbytes⟩ := hold
    rw [hfind]
    simp only [TypeInfo.field] at hbytes ⊢
    cases hf : ti.fields.find? fun x => x.name = f with
    | none => rfl
    | some fi => simp only [hbytes f fi hf]

/-- A store into a field of a registered type. -/
theorem Refines.stored {p : Nat} {t f : CStr} {ti : TypeInfo} {fi : FieldInfo} {i : Nat} {m : Mem}
    (htype : s.log.typeOf p t = some ti) (hf : ti.field f = some fi)
    (hfind : findSlot p t s.st.registry = .ok (some (i, ⟨p, ti, m⟩))) (value : Mem) :
    let reg : RegisteredType := ⟨p, ti, m.write fi.offset (value.read 0 fi.size)⟩
    Refines ⟨{ s.st with registry := s.st.registry.set i (some reg) },
      .stored p t f value :: s.log⟩ := by
  intro reg
  obtain ⟨hslot, -, hname⟩ := findSlot_some hfind
  have hlen : (value.read 0 fi.size).length = fi.size := by simp [Mem.read]
  refine ⟨fun hn => ?_, fun p' t' => ?_⟩
  · rcases List.mem_or_eq_of_mem_set hn with hn | hn
    · exact h.full hn
    · cases hn
  by_cases hkey : p = p' ∧ ti.name = t'
  · obtain ⟨rfl, rfl⟩ := hkey
    replace hname : ti.name = t := hname
    subst hname
    have hold := h.holds p ti.name
    unfold Agrees at hold
    rw [htype] at hold
    obtain ⟨j, m', hfind', hlaid, hbytes⟩ := hold
    rw [hfind] at hfind'
    cases hfind'
    unfold Agrees
    rw [show Log.typeOf p ti.name (.stored p ti.name f value :: s.log) = some ti from htype]
    refine ⟨i, _, findSlot_set hfind rfl rfl, hlaid, fun f' fi' hf' => ?_⟩
    by_cases hff : f = f'
    · subst hff
      rw [hf] at hf'
      cases hf'
      have hread := Mem.read_write_self m fi.offset (value.read 0 fi.size)
      rw [hlen] at hread
      simp [hread, Log.lastStored]
    · -- The other field lies apart from the bytes written.
      have hap := hlaid.apart hf' hf (Ne.symm hff)
      rw [Mem.read_write_disjoint (by rw [hlen]; exact hap), hbytes f' fi' hf']
      simp [Log.lastStored, hff]
  · have hold := h.holds p' t'
    have hother : ∀ f', Log.lastStored p' t' f' (.stored p t f value :: s.log) =
        Log.lastStored p' t' f' s.log := by
      intro f'
      replace hname : ti.name = t := hname
      subst hname
      exact if_neg fun hk => hkey ⟨hk.1, hk.2.1⟩
    have hset : findSlot p' t' (s.st.registry.set i (some reg)) = findSlot p' t' s.st.registry :=
      h.full.findSlot_set hslot rfl rfl hkey
    unfold Agrees at hold ⊢
    simp only [hother, hset]
    exact hold

/-- `hk_set_field` returns what a read returns, and stores the value if that is 0. -/
theorem Refines.set (io : FloatText) (p : Nat) (t f : CStr) (value : Mem) :
    ∃ st', hkSetField io false s.st p t f value = .ok ((s.log.get p t f).1, st', []) ∧
      ((s.log.get p t f).1 ≠ 0 → st' = s.st) ∧
      Refines ⟨st', s.log.after (s.log.get p t f).1 (some (.stored p t f value))⟩ := by
  have hold := h.holds p t
  unfold Agrees at hold
  unfold hkSetField findRegistered Log.get
  cases htype : s.log.typeOf p t with
  | none =>
    rw [htype] at hold
    rw [hold.1]
    exact ⟨s.st, rfl, fun _ => rfl, h⟩
  | some ti =>
    rw [htype] at hold
    obtain ⟨i, m, hfind, -, -⟩ := hold
    rw [hfind]
    simp only [setFieldLoop_disconnected]
    cases hf : ti.field f with
    | none =>
      have hsame : s.st.registry.set i (some ⟨p, ti, m⟩) = s.st.registry := by
        obtain ⟨hi, he⟩ := List.getElem?_eq_some_iff.mp (findSlot_some hfind).1
        rw [← he, List.set_getElem_self]
      rw [TypeInfo.field] at hf
      simp only [hf, hsame]
      exact ⟨s.st, rfl, fun _ => rfl, h⟩
    | some fi =>
      have hnew := h.stored htype hf hfind value
      rw [TypeInfo.field] at hf
      simp only [hf]
      exact ⟨_, rfl, fun hne => absurd rfl hne, hnew⟩

/-- A type that no registered one has the key of. -/
theorem Refines.registered {p : Nat} {ti : TypeInfo} (hlaid : ti.Laid)
    (hfind : findSlot p ti.name s.st.registry = .ok none) :
    Refines ⟨{ s.st with registry := s.st.registry ++ [some ⟨p, ti, fun _ => 0⟩] },
      .registered p ti :: s.log⟩ := by
  refine ⟨fun hn => ?_, fun p' t' => ?_⟩
  · rcases List.mem_append.mp hn with hn | hn
    · exact h.full hn
    · simp at hn
  have hold := h.holds p' t'
  unfold Agrees at hold ⊢
  by_cases hkey : p = p' ∧ ti.name = t'
  · obtain ⟨rfl, rfl⟩ := hkey
    have hzero : ∀ f, s.log.lastStored p ti.name f = fun _ => 0 := by
      cases htype : s.log.typeOf p ti.name with
      | none =>
        rw [htype] at hold
        exact hold.2
      | some ti' =>
        rw [htype] at hold
        obtain ⟨i, m, hfind', -⟩ := hold
        rw [hfind] at hfind'
        cases hfind'
    rw [show Log.typeOf p ti.name (.registered p ti :: s.log) = some ti from if_pos ⟨rfl, rfl⟩]
    refine ⟨s.st.registry.length, fun _ => 0, ?_, hlaid, fun f fi hf => ?_⟩
    · simp [h.full.findSlot_append, hfind]
    · show _ = (s.log.lastStored p ti.name f).read 0 fi.size
      rw [hzero f]
      rfl
  · rw [show Log.typeOf p' t' (.registered p ti :: s.log) = s.log.typeOf p' t' from if_neg hkey]
    simp only [h.full.findSlot_append]
    cases htype : s.log.typeOf p' t' with
    | none =>
      rw [htype] at hold
      simp only [hold.1, if_neg hkey]
      exact ⟨trivial, hold.2⟩
    | some ti' =>
      rw [htype] at hold
      obtain ⟨i, m, hfind', hrest⟩ := hold
      exact ⟨i, m, by simp only [hfind'], hrest⟩

/-- `hk_type_register` changes nothing or adds the type. -/
theorem Refines.register (p : Nat) (info : Option LaidType) (calloc : Bool) :
    ∃ ret st', hkTypeRegister s.st p (info.map (·.info)) calloc = .ok (ret, st') ∧
      (ret ≠ 0 → st' = s.st) ∧
      Refines ⟨st', s.log.after ret (info.map fun ti => .registered p ti.info)⟩ := by
  unfold hkTypeRegister
  cases info with
  | none => exact ⟨-1, s.st, rfl, fun _ => rfl, h⟩
  | some ti =>
    obtain ⟨o, ho⟩ := h.full.findSlot_ok p ti.info.name
    simp only [Option.map_some, ho]
    cases o with
    | some x => exact ⟨1, s.st, rfl, fun _ => rfl, h⟩
    | none =>
      simp only
      split
      · exact ⟨-2, s.st, rfl, fun _ => rfl, h⟩
      split
      · exact ⟨-3, s.st, rfl, fun _ => rfl, h⟩
      · exact ⟨0, _, rfl, fun hne => absurd rfl hne, h.registered ti.laid ho⟩

/-- **One operation.** It does not fault, keeps the refinement and touches only its own key. -/
theorem Refines.step (io : FloatText) (op : Op) :
    ∃ s', (heapkit io).step op s = some s' ∧ Refines s' ∧
      ∀ p t f, ¬ op.Touches p t f → s'.log.get p t f = s.log.get p t f := by
  cases op with
  | register p info calloc =>
    obtain ⟨ret, st', hret, -, hnew⟩ := h.register p info calloc
    refine ⟨_, by simp only [heapkit, Op.step, hret], hnew, fun p' t' f' hne => ?_⟩
    unfold Log.after
    split
    · cases info with
      | none => rfl
      | some ti =>
        have hkey : ¬ (p = p' ∧ ti.info.name = t') := fun hk => hne ⟨ti, rfl, hk⟩
        simp [Log.get, Log.typeOf, Log.lastStored, hkey]
    · rfl
  | set p t f value =>
    obtain ⟨st', hret, -, hnew⟩ := h.set io p t f value
    refine ⟨_, by simp only [heapkit, Op.step, hret], hnew, fun p' t' f' hne => ?_⟩
    unfold Log.after
    split
    · have hkey : ¬ (p = p' ∧ t = t' ∧ f = f') := hne
      simp [Log.get, Log.typeOf, Log.lastStored, hkey]
    · rfl
  | get p t f =>
    exact ⟨s, by simp only [heapkit, Op.step, h.get], h, fun _ _ _ _ => rfl⟩

end Operations

/-- What a state that agrees with its history shows to the plugins. -/
structure ActsAsMap (io : FloatText) (s : Logged) : Prop where
  /-- A read returns 0 with the bytes last stored, -1 for a type that is not registered or -2 for
  a missing field. -/
  get : ∀ p t f, hkGetField s.st p t f = .ok (s.log.get p t f)
  /-- A store returns the same; one that fails changes nothing. -/
  set : ∀ p t f value, ∃ st', hkSetField io false s.st p t f value =
    .ok ((s.log.get p t f).1, st', []) ∧ ((s.log.get p t f).1 ≠ 0 → st' = s.st)
  /-- A registration that fails changes nothing. -/
  register : ∀ p (info : Option LaidType) calloc, ∃ ret st',
    hkTypeRegister s.st p (info.map (·.info)) calloc = .ok (ret, st') ∧ (ret ≠ 0 → st' = s.st)
  /-- No operation changes what the reads of other keys give. -/
  others : ∀ op, ∃ s', (heapkit io).step op s = some s' ∧ ∀ p t f, ¬ op.Touches p t f →
    hkGetField s'.st p t f = hkGetField s.st p t f

theorem Refines.actsAsMap {s : Logged} (h : Refines s) (io : FloatText) : ActsAsMap io s where
  get := h.get
  set := fun p t f value =>
    let ⟨st', hret, hsame, _⟩ := h.set io p t f value
    ⟨st', hret, hsame⟩
  register := fun p info calloc =>
    let ⟨ret, st', hret, hsame, _⟩ := h.register p info calloc
    ⟨ret, st', hret, hsame⟩
  others := fun op => by
    obtain ⟨s', hs', hnew, hother⟩ := h.step io op
    refine ⟨s', hs', fun p t f hne => ?_⟩
    rw [hnew.get, h.get, hother p t f hne]

/-- **HeapKit is a map.** Every sequence of registrations, stores and reads runs without a fault,
and after it the registry acts as the map of what was registered and stored. -/
theorem heapkit_refines_map (io : FloatText) (strs : StrHeap) (ops : List Op) :
    ∃ s, (heapkit io).run ops (Logged.init strs) = some s ∧ ActsAsMap io s := by
  have htotal : ∀ s op, Refines s → ∃ s', (heapkit io).step op s = some s' ∧ Refines s' := by
    intro s op hs
    obtain ⟨s', h, hnew, -⟩ := hs.step io op
    exact ⟨s', h, hnew⟩
  obtain ⟨s, hs, hnew⟩ := Machine.run_total htotal ops (refines_init strs)
  exact ⟨s, hs, hnew.actsAsMap io⟩

end HeapKit
end CoreCDTL
