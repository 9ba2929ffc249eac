import CoreCDTL.Lib.CString
import CoreCDTL.Lib.Memory
import Mathlib.Logic.Function.Basic

/-!
# HeapKit: the type registry (`core/heapkit.c`)

A plugin registers record types; each registered type has one instance, a zeroed memory block.

* `TypeInfo`, `FieldInfo`, `RegisteredType`: the structures of `core/heapkit.h`. A slot of
  `g_type_registry` is `none` while its bytes are zero (`type_info` and `d_instance` NULL), which
  `hk_init` makes of every slot. `State.registry` is `g_type_registry[0 .. g_type_count)`.
* `StrHeap`: the C strings in memory by address, and the allocator behind `strdup` and `strndup`.
* `hkTypeRegister`, `findRegistered`: registration and lookup. A slot whose `type_info` is NULL
  has plugin id 0; comparing its name faults.
-/

namespace CoreCDTL
namespace HeapKit

/-- `field_type_t`. -/
inductive FieldType where
  | int | float | bool | char | string | struct | ptr | unknown
  deriving DecidableEq, Repr

/-- `field_info_t`. -/
structure FieldInfo where
  name : CStr
  type : FieldType
  offset : Nat
  size : Nat
  typeName : Option CStr := none
  deriving DecidableEq, Repr

/-- `type_info_t`; `field_count` is the length of `fields`. -/
structure TypeInfo where
  name : CStr
  size : Nat
  fields : List FieldInfo
  deriving DecidableEq, Repr

/-- A used slot of `g_type_registry`. -/
structure RegisteredType where
  pluginId : Nat
  typeInfo : TypeInfo
  dInstance : Mem

def MAX_REGISTERED_TYPES : Nat := 128

/-- `hk_type_size`. -/
def hkTypeSize : FieldType → Nat
  | .int => 4
  | .float => 4
  | .bool => 1
  | .char => 1
  | .string => 8
  | .ptr => 8
  | .struct | .unknown => 0

/-- `hk_parse_type`: the type and, for a struct, the name stored in `out_struct_name`. -/
def hkParseType (str : CStr) : FieldType × Option CStr :=
  if str = "int".toList then (.int, none)
  else if str = "float".toList then (.float, none)
  else if str = "bool".toList then (.bool, none)
  else if str = "char".toList then (.char, none)
  else if str = "string".toList then (.string, none)
  else if str = "ptr".toList then (.ptr, none)
  else (.struct, some str)

/-- The C strings in memory by address, and the next address that the allocator hands out. -/
structure StrHeap where
  str : Nat → CStr
  brk : Nat
  str_nul : ∀ a, nul ∉ str a
  brk_pos : 0 < brk

namespace StrHeap

/-- The memory with no string. -/
def empty : StrHeap := ⟨fun _ => [], 1, fun _ => List.not_mem_nil, Nat.one_pos⟩

/-- `strdup`: a fresh address that holds `s`, or NULL when the addresses are used up. -/
def strdup (h : StrHeap) (s : CStr) : Nat × StrHeap :=
  if h.brk < 2 ^ 64 then
    (h.brk,
      { str := Function.update h.str h.brk (cstr s)
        brk := h.brk + 1
        str_nul := fun a => by
          by_cases ha : a = h.brk
          · subst ha; simpa using nul_not_mem_cstr s
          · simpa [Function.update_of_ne ha] using h.str_nul a
        brk_pos := Nat.succ_pos _ })
  else (0, h)

/-- The string of a `char *` with NULL read as the empty string (`p ?: ""`). -/
def text (h : StrHeap) (a : Nat) : CStr := if a = 0 then [] else h.str a

theorem text_nul (h : StrHeap) (a : Nat) : nul ∉ h.text a := by
  unfold text
  split
  · exact List.not_mem_nil
  · exact h.str_nul a

/-- What `strdup` does while there are addresses left: a new string, the old ones as they were. -/
theorem strdup_spec {h : StrHeap} {s : CStr} (hs : nul ∉ s) (hb : h.brk < 2 ^ 64) :
    (h.strdup s).1 = h.brk ∧ (h.strdup s).2.brk = h.brk + 1 ∧
      (h.strdup s).2.str h.brk = s ∧ ∀ a, a < h.brk → (h.strdup s).2.str a = h.str a := by
  unfold strdup
  simp only [hb, ↓reduceIte, Function.update_self, cstr_eq_self hs, true_and]
  intro a ha
  exact Function.update_of_ne (by omega) _ _

end StrHeap

/-- The globals of `heapkit.c` and the strings that the instances point to. -/
structure State where
  registry : List (Option RegisteredType)
  strs : StrHeap

/-- A fault: the code dereferences NULL. -/
inductive Fault where
  | nullDeref
  deriving DecidableEq, Repr

/-- `hk_init`: the slots are zeroed, `g_type_count` stays. -/
def hkInit (st : State) : State := { st with registry := st.registry.map fun _ => none }

/-- The search of `find_registered` in the slots: the first slot of the plugin with the name. -/
def findSlot (pluginId : Nat) (typeName : CStr) :
    List (Option RegisteredType) → Except Fault (Option (Nat × RegisteredType))
  | [] => .ok none
  | none :: rest =>
    if pluginId = 0 then .error .nullDeref
    else (findSlot pluginId typeName rest).map (Option.map fun p => (p.1 + 1, p.2))
  | some r :: rest =>
    if r.pluginId = pluginId ∧ r.typeInfo.name = typeName then .ok (some (0, r))
    else (findSlot pluginId typeName rest).map (Option.map fun p => (p.1 + 1, p.2))

/-- `find_registered`: the slot's index and what it holds. -/
def findRegistered (st : State) (pluginId : Nat) (typeName : CStr) :
    Except Fault (Option (Nat × RegisteredType)) :=
  findSlot pluginId typeName st.registry

/-- `hk_type_register`: the return value and the globals after it. `info` is `none` for a NULL
`info` or a NULL name, `calloc` says whether the instance's allocation succeeds. -/
def hkTypeRegister (st : State) (pluginId : Nat) (info : Option TypeInfo) (calloc : Bool) :
    Except Fault (Int × State) :=
  match info with
  | none => .ok (-1, st)
  | some ti =>
    match findSlot pluginId ti.name st.registry with
    | .error e => .error e
    | .ok (some _) => .ok (1, st)
    | .ok none =>
      if st.registry.length ≥ MAX_REGISTERED_TYPES then .ok (-2, st)
      else if calloc = false then .ok (-3, st)
      else .ok (0, { st with registry := st.registry ++ [some ⟨pluginId, ti, fun _ => 0⟩] })

/-- `findSlot` finds the first slot, or goes on behind it. -/
theorem findSlot_cons_some {pid : Nat} {name : CStr} {s : Option RegisteredType}
    {rest : List (Option RegisteredType)} {i : Nat} {r : RegisteredType}
    (h : findSlot pid name (s :: rest) = .ok (some (i, r))) :
    (i = 0 ∧ s = some r ∧ r.pluginId = pid ∧ r.typeInfo.name = name) ∨
      ∃ j, i = j + 1 ∧ findSlot pid name rest = .ok (some (j, r)) ∧
        ∀ l, findSlot pid name (s :: l) =
          (findSlot pid name l).map (Option.map fun p => (p.1 + 1, p.2)) := by
  have behind : (findSlot pid name rest).map (Option.map fun p => (p.1 + 1, p.2)) =
      .ok (some (i, r)) → ∃ j, i = j + 1 ∧ findSlot pid name rest = .ok (some (j, r)) := by
    intro h
    cases hf : findSlot pid name rest with
    | error e => rw [hf] at h; cases h
    | ok o =>
      cases o with
      | none => rw [hf] at h; cases h
      | some p =>
        rw [hf] at h
        cases h
        exact ⟨p.1, rfl, rfl⟩
  cases s with
  | none =>
    simp only [findSlot] at h
    split at h
    · cases h
    · rename_i hne
      obtain ⟨j, hi, hj⟩ := behind h
      exact .inr ⟨j, hi, hj, fun l => by rw [findSlot, if_neg hne]⟩
  | some q =>
    simp only [findSlot] at h
    split at h
    · rename_i hq
      cases h
      exact .inl ⟨rfl, rfl, hq⟩
    · rename_i hq
      obtain ⟨j, hi, hj⟩ := behind h
      exact .inr ⟨j, hi, hj, fun l => by rw [findSlot, if_neg hq]⟩

/-- What `findSlot` finds is in the slot, has the plugin id and the name, and is the first such. -/
theorem findSlot_some {pid : Nat} {name : CStr} {l : List (Option RegisteredType)} {i : Nat}
    {r : RegisteredType} (h : findSlot pid name l = .ok (some (i, r))) :
    l[i]? = some (some r) ∧ r.pluginId = pid ∧ r.typeInfo.name = name := by
  induction l generalizing i with
  | nil => cases h
  | cons s rest ih =>
    rcases findSlot_cons_some h with ⟨rfl, rfl, hq⟩ | ⟨j, rfl, hj, -⟩
    · exact ⟨rfl, hq⟩
    · exact ih hj

/-- Replacing the instance of the found slot does not change what the search finds. -/
theorem findSlot_set {pid : Nat} {name : CStr} {l : List (Option RegisteredType)} {i : Nat}
    {r r' : RegisteredType} (h : findSlot pid name l = .ok (some (i, r)))
    (hp : r'.pluginId = r.pluginId) (ht : r'.typeInfo = r.typeInfo) :
    findSlot pid name (l.set i (some r')) = .ok (some (i, r')) := by
  induction l generalizing i with
  | nil => cases h
  | cons s rest ih =>
    rcases findSlot_cons_some h with ⟨rfl, rfl, hpid, hname⟩ | ⟨j, rfl, hj, hcons⟩
    · rw [List.set_cons_zero, findSlot, hp, ht, if_pos ⟨hpid, hname⟩]
    · rw [List.set_cons_succ, hcons, ih hj]
      rfl

end HeapKit
end CoreCDTL
