import CoreCDTL.HeapKit.Fields
import CoreCDTL.Plugin.Ids

/-!
# What a failed load leaves behind

When `plugin_load` returns NULL it has freed the handle. It has not taken back the id that
`plugin_manifest_set` drew, nor the types that `plugin_data_set` registered under it.

* `pluginLoad_registers`: what a load does to the registry, whether it fails or not.
* `failed_load_atomic_iff`: a failed load leaves the globals as they were exactly when it failed
  before it took an id.
-/

namespace CoreCDTL
namespace Plugin

open HeapKit (TypeInfo hkTypeRegister findSlot)

/-- `hk'` is `hk` with more types of the plugin `pid`, laid out one field behind the other and with
zeroed instances. -/
def Registers (pid : Nat) (hk hk' : HeapKit.State) : Prop :=
  ∃ types : List TypeInfo, (∀ ti ∈ types, ti.Laid) ∧ hk' =
    { hk with registry := hk.registry ++ types.map fun ti => some ⟨pid, ti, fun _ => 0⟩ }

theorem Registers.refl (pid : Nat) (hk : HeapKit.State) : Registers pid hk hk :=
  ⟨[], nofun, by simp⟩

theorem Registers.trans {pid : Nat} {a b c : HeapKit.State} (h₁ : Registers pid a b)
    (h₂ : Registers pid b c) : Registers pid a c := by
  obtain ⟨ts, hts, rfl⟩ := h₁
  obtain ⟨us, hus, rfl⟩ := h₂
  refine ⟨ts ++ us, fun ti h => ?_, by simp⟩
  rcases List.mem_append.mp h with h | h
  · exact hts ti h
  · exact hus ti h

theorem hkTypeRegister_registers {hk hk' : HeapKit.State} {pid : Nat} {ti : TypeInfo}
    {calloc : Bool} {ret : Int} (hlaid : ti.Laid)
    (h : hkTypeRegister hk pid (some ti) calloc = .ok (ret, hk')) : Registers pid hk hk' := by
  unfold hkTypeRegister at h
  simp only at h
  cases hf : findSlot pid ti.name hk.registry with
  | error e => simp only [hf, reduceCtorEq] at h
  | ok found =>
    cases found with
    | some p => simp only [hf] at h; cases h; exact .refl pid hk
    | none =>
      simp only [hf] at h
      split at h
      · cases h; exact .refl pid hk
      split at h
      · cases h; exact .refl pid hk
      · cases h
        exact ⟨[ti], fun t ht => List.mem_singleton.mp ht ▸ hlaid, rfl⟩

/-! ## `types.data` -/

/-- The type that the lines so far describe is laid out. -/
def LaidSoFar (currentType : Option TypeInfo) : Prop := ∀ ti, currentType = some ti → ti.Laid

theorem laidSoFar_none : LaidSoFar none := fun _ h => nomatch h

theorem laid_nil (name : CStr) : TypeInfo.Laid ⟨name, 0, []⟩ := ⟨trivial, rfl⟩

theorem addField_laid {ty : TypeInfo} (h : ty.Laid) (name type : CStr) :
    (addField ty name type).Laid := by
  unfold addField
  simp only
  exact h.concat (f := ⟨name, (HeapKit.hkParseType type).1, ty.size,
    HeapKit.hkTypeSize (HeapKit.hkParseType type).1, (HeapKit.hkParseType type).2⟩) rfl

theorem fieldLine_laid {ty ty' : TypeInfo} {line : CStr} (h : ty.Laid)
    (hl : fieldLine ty line = some ty') : ty'.Laid := by
  unfold fieldLine at hl
  split at hl
  · split at hl
    · cases hl; exact h
    split at hl
    · cases hl
    · split at hl
      · cases hl; exact h
      · split at hl
        · cases hl
        · cases hl
          exact addField_laid h _ _
  · cases hl; exact h

/-- What a line does to the registry and to the type so far. -/
def LineKeeps (pid : Nat) (hk : HeapKit.State) : DataStep → Prop
  | .fault => True
  | .failed hk' => Registers pid hk hk'
  | .next ty hk' => Registers pid hk hk' ∧ LaidSoFar ty

/-- A line of `types.data` only adds types of the plugin. -/
theorem dataLine_keeps (pid : Nat) (structName : CStr) (instanceAlloc : Bool) (line : CStr)
    {currentType : Option TypeInfo} (hk : HeapKit.State) (hty : LaidSoFar currentType) :
    LineKeeps pid hk (dataLine pid structName instanceAlloc line currentType hk) := by
  have same : ∀ {ty}, LaidSoFar ty → LineKeeps pid hk (.next ty hk) := fun h => ⟨.refl pid hk, h⟩
  have started : ∀ name, LaidSoFar (some ⟨name, 0, []⟩) := fun name _ h => by
    cases h
    exact laid_nil name
  unfold dataLine
  simp only
  split
  · exact same hty
  split
  · split
    · exact same (started structName)
    · split
      · trivial
      · exact same (started _)
  cases currentType with
  | none => exact same hty
  | some ty =>
    have hlaid := hty ty rfl
    simp only
    split
    · cases hf : fieldLine ty (line.dropWhile isspace) with
      | none => trivial
      | some ty' => exact same fun _ h => by cases h; exact fieldLine_laid hlaid hf
    split
    · cases hr : hkTypeRegister hk pid (some ty) instanceAlloc with
      | error e => trivial
      | ok p =>
        obtain ⟨ret, hk'⟩ := p
        have hreg := hkTypeRegister_registers hlaid hr
        simp only
        split
        · exact hreg
        · exact ⟨hreg, laidSoFar_none⟩
    · exact same hty

theorem dataLines_registers {e : Entry} {pid : Nat} {ret : Int} {hk' : HeapKit.State}
    (lines : List CStr) (n : Nat) {ty : Option TypeInfo} {hk : HeapKit.State}
    (hty : LaidSoFar ty) (h : dataLines e pid n lines ty hk = some (ret, hk')) :
    Registers pid hk hk' := by
  induction lines generalizing n ty hk with
  | nil =>
    cases h
    exact .refl pid _
  | cons line rest ih =>
    have hline := dataLine_keeps pid (e.structName n) (e.instanceAlloc n) line hk hty
    unfold dataLines at h
    cases hl : dataLine pid (e.structName n) (e.instanceAlloc n) line ty hk with
    | fault => simp only [hl, reduceCtorEq] at h
    | failed hk₁ =>
      simp only [hl, Option.some.injEq, Prod.mk.injEq] at h hline
      exact h.2 ▸ hline
    | next ty₁ hk₁ =>
      simp only [hl] at h hline
      exact hline.1.trans (ih (n + 1) hline.2 h)

/-- **`types.data`.** Whatever it holds and wherever it fails, `plugin_data_set` only adds types of
its plugin to the registry, laid out as the field accesses need them. -/
theorem pluginDataSet_registers {e : Entry} {pid : Nat} {hk hk' : HeapKit.State} {ret : Int}
    (h : pluginDataSet e pid hk = some (ret, hk')) : Registers pid hk hk' := by
  unfold pluginDataSet at h
  split at h
  · cases h
    exact .refl pid _
  · exact dataLines_registers _ 0 laidSoFar_none h

/-- Loading a plugin, whether it fails or not, only adds types of the id that it draws. -/
theorem pluginLoad_registers {e : Entry} {g g' : Loader} {r : Option Handle}
    (h : pluginLoad e g = some (r, g')) : Registers g.currentId g.heapkit g'.heapkit := by
  cases pluginLoad_end h with
  | early takes counter heapkit => rw [heapkit]; exact .refl _ _
  | late ret takes counter data => exact pluginDataSet_registers data
  | loaded k takes counter data => exact pluginDataSet_registers data

/-- **A failed load.** When `plugin_load` returns NULL, the registry and `current_id` are as they
were before the call if and only if there was no handle or the manifest was not read to its end. -/
theorem failed_load_atomic_iff {e : Entry} {g g' : Loader}
    (h : pluginLoad e g = some (none, g')) :
    g'.heapkit = g.heapkit ∧ g'.currentId = g.currentId ↔
      e.handleAlloc = false ∨ ManifestFails e := by
  rw [← takesId_eq_false]
  cases pluginLoad_end h with
  | early takes counter heapkit => exact iff_of_true ⟨heapkit, counter⟩ takes
  | late ret takes counter =>
    refine iff_of_false (fun hk => ?_) (by simp [takes])
    have hne := counter.symm.trans hk.2
    omega

/-- A plugin directory without a manifest. -/
def noManifest : Entry := { pluginDir ['a'] true with manifest := none }

/-- Nothing is taken. -/
theorem failed_load_atomic_no_manifest :
    ∃ g', pluginLoad noManifest ⟨1, noTypes, 0, 0⟩ = some (none, g') ∧
      g'.heapkit = noTypes ∧ g'.currentId = 1 := by
  have h : pluginLoad noManifest ⟨1, noTypes, 0, 0⟩ = some (none, ⟨1, noTypes, 1, 1⟩) := rfl
  exact ⟨_, h, (failed_load_atomic_iff h).mpr (.inr trivial)⟩

/-- **A type without a plugin.** `types.data` declares the same struct twice. The load fails at the
second, the first stays registered and the id is used up. -/
theorem failed_load_keeps_type :
    ∃ g', pluginLoad { pluginDir ['a'] true with
          data := some "struct P\nfield x int\nend\nstruct P\nend\n".toList } ⟨1, noTypes, 0, 0⟩ =
        some (none, g') ∧ g'.heapkit.registry.length = 1 ∧ g'.currentId = 2 ∧ g'.badFrees = 0 := by
  have hrun : (pluginLoad { pluginDir ['a'] true with
      data := some "struct P\nfield x int\nend\nstruct P\nend\n".toList } ⟨1, noTypes, 0, 0⟩).any
      (fun p => p.1.isNone && (p.2.heapkit.registry.length == 1 && p.2.currentId == 2 &&
        p.2.badFrees == 0)) = true := by
    decide +kernel
  obtain ⟨⟨r, g'⟩, hg, h⟩ := Option.any_eq_true _ _ |>.mp hrun
  simp only [Bool.and_eq_true, Option.isNone_iff_eq_none, beq_iff_eq] at h
  obtain ⟨rfl, ⟨h₁, h₂⟩, h₃⟩ := h
  exact ⟨g', hg, h₁, h₂, h₃⟩

end Plugin
end CoreCDTL
