import CoreCDTL.Gateway.Listings
import CoreCDTL.HeapKit.Fields

/-!
# HeapKit: the type registry over `hk_init` and `hk_type_register`

* `ValidRegistry st regs`: the slots below `g_type_count` are the types `regs`, no two of one plugin
  with one name. A registration keeps it (`hkTypeRegister_valid`), and in such a registry neither
  the search nor the listing meets a NULL `type_info`.
* `typeRegistry`: the calls of the two functions, in any order. `registry_valid_iff`: the registry
  stays valid as long as `hk_init` comes before the first type.
-/

namespace CoreCDTL
namespace HeapKit

open Gateway (hkGetList hkGetList_holds)

/-- What tells two registered types apart. -/
def RegisteredType.key (r : RegisteredType) : Nat × CStr := (r.pluginId, r.typeInfo.name)

/-- The table holds the types `regs`, in this order. A slot that is in use has a `type_info` and a
`d_instance`. -/
structure ValidRegistry (st : State) (regs : List RegisteredType) : Prop where
  slots : st.registry = regs.map some
  distinct : (regs.map RegisteredType.key).Nodup
  bounded : st.registry.length ≤ MAX_REGISTERED_TYPES

/-! ## The search -/

/-- The search finds no slot exactly when no type has the key. -/
theorem findSlot_map_none {p : Nat} {t : CStr} {regs : List RegisteredType} :
    findSlot p t (regs.map some) = .ok none ↔ (p, t) ∉ regs.map RegisteredType.key := by
  induction regs with
  | nil => simp [findSlot]
  | cons r regs ih =>
    rw [List.map_cons, List.map_cons, findSlot_cons, List.mem_cons, not_or, ← ih]
    by_cases hr : r.pluginId = p ∧ r.typeInfo.name = t
    · obtain ⟨rfl, rfl⟩ := hr
      simp [RegisteredType.key]
    · have hne : (p, t) ≠ r.key := by
        intro he
        cases he
        exact hr ⟨rfl, rfl⟩
      rw [if_neg hr]
      cases hf : findSlot p t (regs.map some) with
      | error e => simp [Except.map]
      | ok o => cases o <;> simp [Except.map, hne]

/-- The search for the key of a type finds that type. -/
theorem findSlot_map_mem {regs : List RegisteredType}
    (hd : (regs.map RegisteredType.key).Nodup) {r : RegisteredType} (hr : r ∈ regs) :
    ∃ i, findSlot r.pluginId r.typeInfo.name (regs.map some) = .ok (some (i, r)) := by
  induction regs with
  | nil => cases hr
  | cons q regs ih =>
    rw [List.map_cons, List.nodup_cons] at hd
    rw [List.map_cons, findSlot_cons]
    rcases List.mem_cons.mp hr with rfl | hr
    · exact ⟨0, if_pos ⟨rfl, rfl⟩⟩
    · obtain ⟨i, hi⟩ := ih hd.2 hr
      have hne : ¬ (q.pluginId = r.pluginId ∧ q.typeInfo.name = r.typeInfo.name) := by
        rintro ⟨hp, ht⟩
        refine hd.1 (List.mem_map.mpr ⟨r, hr, ?_⟩)
        rw [RegisteredType.key, RegisteredType.key, hp, ht]
      exact ⟨i + 1, by rw [if_neg hne, hi]; rfl⟩

namespace ValidRegistry

variable {st : State} {regs : List RegisteredType} (h : ValidRegistry st regs)

include h

theorem full : Full st.registry := by
  unfold Full
  rw [h.slots]
  simp

theorem find {r : RegisteredType} (hr : r ∈ regs) :
    ∃ i, findRegistered st r.pluginId r.typeInfo.name = .ok (some (i, r)) := by
  unfold findRegistered
  rw [h.slots]
  exact findSlot_map_mem h.distinct hr

/-- A type that is added is not in the table yet. -/
theorem hkTypeRegister (p : Nat) (info : Option TypeInfo) (calloc : Bool) :
    ∃ ret st' regs', hkTypeRegister st p info calloc = .ok (ret, st') ∧
      ValidRegistry st' regs' := by
  unfold HeapKit.hkTypeRegister
  cases info with
  | none => exact ⟨-1, st, regs, rfl, h⟩
  | some ti =>
    obtain ⟨o, ho⟩ := h.full.findSlot_ok p ti.name
    simp only [ho]
    cases o with
    | some x => exact ⟨1, st, regs, rfl, h⟩
    | none =>
      simp only
      by_cases hfull : st.registry.length ≥ MAX_REGISTERED_TYPES
      · exact ⟨-2, st, regs, if_pos hfull, h⟩
      rw [if_neg hfull]
      cases calloc with
      | false => exact ⟨-3, st, regs, if_pos rfl, h⟩
      | true =>
        refine ⟨0, _, regs ++ [⟨p, ti, fun _ => 0⟩], if_neg (by decide), ?_, ?_, ?_⟩
        · simp [h.slots]
        · rw [h.slots] at ho
          rw [List.map_append, List.nodup_append]
          refine ⟨h.distinct, List.nodup_singleton _, ?_⟩
          rintro a ha b hb rfl
          have hkey : a = (p, ti.name) := by simpa [RegisteredType.key] using hb
          exact findSlot_map_none.mp ho (hkey ▸ ha)
        · rw [List.length_append, List.length_singleton]
          exact Nat.not_le.mp hfull

end ValidRegistry

/-! ## Calls in any order -/

/-- A call of `hk_init` or `hk_type_register`. -/
inductive RegistryCall where
  | init
  | register (pluginId : Nat) (info : Option TypeInfo) (calloc : Bool)

/-- The globals after the call; there are none after a fault. -/
def RegistryCall.step : RegistryCall → State → Option State
  | .init, st => some (hkInit st)
  | .register p info calloc, st =>
    match hkTypeRegister st p info calloc with
    | .error _ => none
    | .ok (_, st') => some st'

def typeRegistry : Machine State RegistryCall := ⟨RegistryCall.step⟩

/-- Every slot below `g_type_count` is in use, no two have the same key, and they are at most
`MAX_REGISTERED_TYPES`. -/
def RegistryInvariant (st : State) : Prop := ∃ regs, ValidRegistry st regs

/-- `find_registered` and `hk_get_list` meet no NULL `type_info`. The listing has a C string in its
buffer, with room for the header. -/
def NeverNull (st : State) : Prop :=
  (∀ p t, ∃ o, findRegistered st p t = .ok o) ∧
    ∀ (io : FloatText) n s buf, CoreCDTL.Holds n s buf → s.length + 24 < n →
      ∃ r, hkGetList io st buf n = some r

theorem RegistryInvariant.neverNull {st : State} (h : RegistryInvariant st) : NeverNull st := by
  obtain ⟨regs, hregs⟩ := h
  refine ⟨hregs.full.findSlot_ok, fun io n s buf hb hroom => ?_⟩
  obtain ⟨ret, added, hadded⟩ := hkGetList_holds io hregs.full hroom
  obtain ⟨buf', hrun, -⟩ := hadded s buf rfl hb
  exact ⟨_, hrun⟩

/-- The call is not a second `hk_init`, after types were registered. -/
def RegistryCall.InTime (st : State) : RegistryCall → Prop
  | .init => st.registry = []
  | .register _ _ _ => True

theorem RegistryInvariant.register {st : State} (h : RegistryInvariant st) (p : Nat)
    (info : Option TypeInfo) (calloc : Bool) :
    ∃ st', typeRegistry.step (.register p info calloc) st = some st' ∧ RegistryInvariant st' := by
  obtain ⟨regs, hregs⟩ := h
  obtain ⟨ret, st', regs', hret, hregs'⟩ := hregs.hkTypeRegister p info calloc
  exact ⟨st', by simp only [typeRegistry, RegistryCall.step, hret], regs', hregs'⟩

/-- `hk_init` leaves the count, so the slots below it are zeroed. -/
theorem RegistryInvariant.init {st : State} (h : RegistryInvariant st) :
    RegistryInvariant (hkInit st) ↔ st.registry = [] := by
  constructor
  · rintro ⟨regs, hregs⟩
    have hslots := hregs.slots
    unfold hkInit at hslots
    cases hreg : st.registry with
    | nil => rfl
    | cons s l =>
      rw [hreg] at hslots
      cases regs with
      | nil => cases hslots
      | cons r regs => cases hslots
  · intro hreg
    have hsame : hkInit st = st := by
      unfold hkInit
      rw [hreg, List.map_nil, ← hreg]
    rwa [hsame]

/-- **One call.** -/
theorem RegistryInvariant.step {st : State} (h : RegistryInvariant st) (c : RegistryCall) :
    (∃ st', typeRegistry.step c st = some st' ∧ RegistryInvariant st' ∧ NeverNull st') ↔
      c.InTime st := by
  cases c with
  | init =>
    refine Iff.trans ⟨?_, fun hst => ⟨_, rfl, hst, hst.neverNull⟩⟩ h.init
    rintro ⟨st', hst', hinv, -⟩
    cases hst'
    exact hinv
  | register p info calloc =>
    obtain ⟨st', hst', hinv⟩ := h.register p info calloc
    exact iff_of_true ⟨st', hst', hinv, hinv.neverNull⟩ trivial

/-- **The registry stays valid exactly as long as `hk_init` comes first.** For every sequence of
calls with any arguments from the start of the program: all of them go through, and after each
every slot below `g_type_count` is in use, the keys are distinct, there are at most
`MAX_REGISTERED_TYPES`, and neither the search nor the listing meets a NULL `type_info`, if and only
if each `hk_init` is called while no type is registered. -/
theorem registry_valid_iff (strs : StrHeap) (calls : List RegistryCall) :
    (∀ cs, cs <+: calls → ∃ st, typeRegistry.run cs ⟨[], strs⟩ = some st ∧
        RegistryInvariant st ∧ NeverNull st) ↔
      typeRegistry.Meets (fun st c => c.InTime st) calls ⟨[], strs⟩ := by
  have hstart : RegistryInvariant ⟨[], strs⟩ := ⟨[], rfl, List.nodup_nil, Nat.zero_le _⟩
  apply Machine.runs_iff_meets _ (fun st c h => h.step c) hstart ⟨hstart, hstart.neverNull⟩
  intro st c st' h hc hst'
  obtain ⟨u, hu, hinv, -⟩ := (h.step c).mpr hc
  rw [hst'] at hu
  cases hu
  exact hinv

/-- **A second `hk_init`.** A type is registered, then `hk_init` called: the slot is below the
count and empty, and a search for a type of plugin 0 compares with a NULL name. -/
theorem hk_init_again :
    ∃ st, typeRegistry.run [.init, .register 1 (some ⟨['p'], 0, []⟩) true, .init]
        ⟨[], StrHeap.empty⟩ = some st ∧
      st.registry = [none] ∧ ¬ RegistryInvariant st ∧ ¬ NeverNull st := by
  refine ⟨_, rfl, rfl, ?_, ?_⟩
  · rintro ⟨regs, hregs⟩
    exact hregs.full (by exact List.mem_singleton_self _)
  · rintro ⟨hfind, -⟩
    obtain ⟨o, ho⟩ := hfind 0 []
    cases ho

end HeapKit
end CoreCDTL
