import CoreCDTL.Plugin.Manager

/-!
# Plugin ids and table positions

`plugin_loader.c` draws the ids, `plugin_manager.c` uses them as positions in its table. A load that
fails after it has drawn an id moves the one counter and not the other.

* `Found`: every stored plugin is found under its own id. `ByName`: every operation called with the
  id that `plugin_get_p_id` returns for a name acts on the plugin with that name, and on no other.
* `Inv`: what holds in every state of the loading loop. The next id is one more than the number of
  stored plugins and lost ids.
* `Settled`: after the loop, a slot has the id of its position or was freed. The later steps keep
  it, and it gives `ByName`.
* `ids_right_iff`: for every directory listing and all outcomes of loading, all of this holds after the
  loop exactly when each stored plugin was loaded while no id was lost.
-/

namespace CoreCDTL
namespace Plugin

/-! ## What the ids are for -/

/-- Every stored plugin is found under its own id. -/
def Found (s : State) : Prop :=
  ∀ i < s.pluginsCount, ∃ h, s.slot i = some h ∧ getPluginById s h.info.id = some i ∧
    pluginGetName s h.info.id = some h.info.name

/-- A call of `op` did what `op` does to the plugin in slot `i`, and nothing else. -/
def ActsOn {ρ : Type} (op : Operation ρ) (s : State) (i : Nat) (h : Handle)
    (r : Option (ρ × State)) : Prop :=
  ∃ s', r = some ((op h).1, s') ∧ s'.slot i = some (op h).2.1 ∧ (∀ j, j ≠ i → s'.slot j = s.slot j) ∧
    s'.calls = s.calls ++ (op h).2.2 ∧ ∀ c ∈ (op h).2.2, c.Of h.funcs

/-- All operations called with the id of the plugin in slot `i` act on that plugin. -/
structure Selects (s : State) (i : Nat) (h : Handle) : Prop where
  name : pluginGetName s h.info.id = some h.info.name
  shutdown : ActsOn shutdownHandle s i h (pluginShutdown h.info.id s)
  init : ∀ ret, ActsOn (initializeHandle ret) s i h (pluginInitialize ret h.info.id s)
  start : ∀ ret, ActsOn (startHandle ret) s i h (pluginStart ret h.info.id s)
  stop : ActsOn stopHandle s i h (pluginStop h.info.id s)
  reboot : ∀ action, ActsOn (rebootHandle action) s i h (pmActionReboot action h.info.id s)

/-- The id that `plugin_get_p_id` returns for a name is that of the first plugin with the name, and
all operations called with it act on that plugin. -/
def ByName (stale : Nat → CStr) (s : State) : Prop :=
  ∀ name id, pluginGetPId stale s (some name) = some id → id ≠ PLUGIN_ID_INVALID →
    ∃ i h, s.slot i = some h ∧ h.info.id = id ∧
      h.info.name.map (Name.text stale) = some name ∧
      (∀ j < i, ∀ k, s.slot j = some k → k.info.name.map (Name.text stale) ≠ some name) ∧
      Selects s i h ∧
      ∀ dlsym fnName, pluginBridgeGetFnPtr stale dlsym s (some name) fnName =
        some (h.so.bind fun lib => dlsym lib fnName)

/-- What the ids are for: the stored plugins are found under their ids, and from then on the lookup
by name selects the right plugin. -/
def Right (s : State) : Prop :=
  Found s ∧ ∀ stale as s', manager.run as s = some s' → ByName stale s'

/-- The entry that loads does not come after a load that lost its id. A table that cannot grow has
to be empty, and an id has to fit the `int` of `plugin_get_name`. -/
def Steady (s : State) (e : Entry) : Prop :=
  e.isDir = true → e.dName.head? ≠ some '.' → ∀ h g, pluginLoad e s.loader = some (some h, g) →
    if s.pluginsCount ≥ s.pluginsCapacity ∧ e.grow = false then s.pluginsCount = 0
    else s.lost % 2 ^ 32 = 0 ∧ s.pluginsCount < 2 ^ 31

/-! ## The loading loop -/

/-- What holds in every state of the loading loop. -/
structure Inv (s : State) : Prop where
  counter : s.loader.currentId = (1 + s.pluginsCount + s.lost) % 2 ^ 32
  table : ∀ l, s.plugins = some l → l.length = s.pluginsCount
  room : s.pluginsCount ≤ s.pluginsCapacity
  /-- A NULL table was never allocated or lost while there was room for more. -/
  noTable : s.plugins = none → s.pluginsCapacity = 0 ∨ s.pluginsCount < s.pluginsCapacity
  ids : ∀ i h, s.slot i = some h → h.info.id < 2 ^ 32

theorem inv_init (hk : HeapKit.State) : Inv (State.init hk) where
  counter := rfl
  table := fun _ h => nomatch h
  room := Nat.le_refl 0
  noTable := fun _ => .inl rfl
  ids := fun _ _ h => nomatch h

/-- The slots after a plugin is stored. -/
theorem slot_append {s : State} {l : List Handle} (hl : l.length = s.pluginsCount) (h : Handle)
    (hp : s.plugins.getD [] = l) (i : Nat) :
    (l ++ [h])[i]? = if i = s.pluginsCount then some h else s.slot i := by
  have hs : s.slot i = l[i]? := by
    unfold State.slot
    cases hpl : s.plugins with
    | none => rw [← hp, hpl]; rfl
    | some l' => rw [← hp, hpl]; rfl
  rw [hs]
  split
  · rename_i he
    rw [he, ← hl, List.getElem?_concat_length]
  · rename_i hne
    by_cases hi : i < l.length
    · rw [List.getElem?_append_left hi]
    · rw [List.getElem?_eq_none (by simp; omega), List.getElem?_eq_none (by omega)]

/-- A table that is full is there, or nothing was stored yet. -/
theorem Inv.length_full {s : State} (hi : Inv s) (full : s.pluginsCapacity ≤ s.pluginsCount) :
    (s.plugins.getD []).length = s.pluginsCount ∧ (s.plugins = none → s.pluginsCount = 0) := by
  have hroom := hi.room
  cases hpl : s.plugins with
  | none =>
    have hzero : s.pluginsCount = 0 := by
      rcases hi.noTable hpl with h | h <;> omega
    exact ⟨hzero.symm, fun _ => hzero⟩
  | some l => exact ⟨hi.table l hpl, fun h => nomatch h⟩

/-- The turns of the loading loop. -/
inductive Turn (e : Entry) (s s' : State) : Prop where
  /-- Nothing loads; an id may be lost. -/
  | failed (plugins : s'.plugins = s.plugins) (count : s'.pluginsCount = s.pluginsCount)
      (capacity : s'.pluginsCapacity = s.pluginsCapacity)
      (counter : s'.loader.currentId = (1 + s'.pluginsCount + s'.lost) % 2 ^ 32)
      (steady : Steady s e)
  | stored (h : Handle) (l : List Handle) (old : s.plugins.getD [] = l)
      (length : l.length = s.pluginsCount) (plugins : s'.plugins = some (l ++ [h]))
      (count : s'.pluginsCount = s.pluginsCount + 1)
      (capacity : s'.pluginsCount ≤ s'.pluginsCapacity)
      (id : h.info.id = (1 + s.pluginsCount + s.lost) % 2 ^ 32)
      (counter : s'.loader.currentId = (1 + s'.pluginsCount + s'.lost) % 2 ^ 32)
      (table : s.plugins = none → s.pluginsCount = 0)
      (steady : Steady s e ↔ s.lost % 2 ^ 32 = 0 ∧ s.pluginsCount < 2 ^ 31)
  /-- The table could not grow. -/
  | dropped (plugins : s'.plugins = none) (count : s'.pluginsCount = s.pluginsCount)
      (capacity : s'.pluginsCount < s'.pluginsCapacity)
      (counter : s'.loader.currentId = (1 + s'.pluginsCount + s'.lost) % 2 ^ 32)
      (steady : Steady s e ↔ s.pluginsCount = 0)

/-- The counter after one more id. -/
theorem next_id {n m k : Nat} (h : m = (1 + n + k) % 2 ^ 32) :
    (m + 1) % 2 ^ 32 = (1 + n + (k + 1)) % 2 ^ 32 ∧
      (m + 1) % 2 ^ 32 = (1 + (n + 1) + k) % 2 ^ 32 := by
  constructor <;> omega

theorem loadEntry_turn {e : Entry} {s s' : State} (hi : Inv s) (hs : loadEntry e s = some s') :
    Turn e s s' := by
  have hroom := hi.room
  -- An entry whose plugin loads is steady under the condition in `Steady`.
  have steady : e.IsPlugin → ∀ {h : Handle} {g : Loader},
      pluginLoad e s.loader = some (some h, g) → (Steady s e ↔
        if s.pluginsCount ≥ s.pluginsCapacity ∧ e.grow = false then s.pluginsCount = 0
        else s.lost % 2 ^ 32 = 0 ∧ s.pluginsCount < 2 ^ 31) := fun dir h g load =>
    ⟨fun hS => hS dir.1 dir.2 h g load, fun hS _ _ _ _ _ => hS⟩
  have loaded : ∀ {h : Handle} {g : Loader}, pluginLoad e s.loader = some (some h, g) →
      h.info.id = (1 + s.pluginsCount + s.lost) % 2 ^ 32 ∧
        g.currentId = (s.loader.currentId + 1) % 2 ^ 32 := by
    intro h g load
    obtain ⟨hcur, hk⟩ := pluginLoad_spec load
    obtain ⟨ht, hid⟩ := hk h rfl
    rw [if_pos ht] at hcur
    exact ⟨hid.trans hi.counter, hcur⟩
  have hcase := loadEntry_case e s
  rw [hs] at hcase
  cases hcase with
  | skipped skip => exact .failed rfl rfl rfl hi.counter fun h₁ h₂ => absurd ⟨h₁, h₂⟩ skip
  | failed g dir load =>
    obtain ⟨hcur, -⟩ := pluginLoad_spec load
    refine .failed rfl rfl rfl ?_ fun _ _ h g' hl => by rw [load] at hl; cases hl
    show g.currentId = (1 + s.pluginsCount + (s.lost + (takesId e).toNat)) % 2 ^ 32
    cases ht : takesId e with
    | false => rw [hcur, ht]; exact hi.counter
    | true => rw [hcur, ht]; exact (next_id hi.counter).1
  | stored h g l dir load room table =>
    obtain ⟨hid, hcur⟩ := loaded load
    refine .stored h l (by rw [table]; rfl) (hi.table l table) rfl rfl room hid
      (hcur.trans (next_id hi.counter).2) (by simp [table]) ?_
    rw [steady dir load, if_neg fun h => absurd room (Nat.not_lt.mpr h.1)]
  | grown h g dir load full grow =>
    obtain ⟨hid, hcur⟩ := loaded load
    obtain ⟨hlen, hnone⟩ := hi.length_full full
    refine .stored h _ rfl hlen rfl rfl ?_ hid (hcur.trans (next_id hi.counter).2) hnone ?_
    · have := lt_grownCapacity s.pluginsCapacity
      show s.pluginsCount + 1 ≤ grownCapacity s.pluginsCapacity
      omega
    · rw [steady dir load, if_neg fun h => by simp [grow] at h]
  | dropped h g dir load full grow =>
    obtain ⟨-, hcur⟩ := loaded load
    refine .dropped rfl rfl ?_ (hcur.trans (next_id hi.counter).1) ?_
    · have := lt_grownCapacity s.pluginsCapacity
      show s.pluginsCount < grownCapacity s.pluginsCapacity
      omega
    · rw [steady dir load, if_pos ⟨full, grow⟩]

/-- Every turn of the loading loop keeps the invariant. -/
theorem inv_keeps : loading.Keeps (fun _ _ => True) Inv := by
  intro s e s' hi _ hs
  cases loadEntry_turn hi hs with
  | failed plugins count capacity counter =>
    refine ⟨counter, ?_, ?_, ?_, fun i h => ?_⟩
    · rw [plugins, count]; exact hi.table
    · rw [count, capacity]; exact hi.room
    · rw [plugins, count, capacity]; exact hi.noTable
    · unfold State.slot; rw [plugins]; exact hi.ids i h
  | stored h l old length plugins count capacity id counter =>
    refine ⟨counter, fun l' hl' => ?_, capacity, fun hn => ?_, fun i k hk => ?_⟩
    · rw [plugins] at hl'
      cases hl'
      rw [count, ← length, List.length_append]
      rfl
    · rw [plugins] at hn; cases hn
    · unfold State.slot at hk
      rw [plugins, Option.bind_some, slot_append length h old] at hk
      split at hk
      · cases hk
        rw [id]
        exact Nat.mod_lt _ (by decide)
      · exact hi.ids i k hk
  | dropped plugins count capacity counter =>
    refine ⟨counter, fun l hl => ?_, Nat.le_of_lt capacity, fun _ => .inr capacity, fun i k hk => ?_⟩
    · rw [plugins] at hl; cases hl
    · unfold State.slot at hk
      rw [plugins] at hk; cases hk

/-! ## Found under the own id -/

/-- A plugin is found under its own id in slot `i` when the id is `i + 1`, and under it alone. -/
theorem getPluginById_eq_some {s : State} {id i : Nat} :
    getPluginById s id = some i ↔ id = i + 1 ∧ i < s.pluginsCount := by
  unfold getPluginById PLUGIN_ID_INVALID
  split
  · rename_i h
    simp only [reduceCtorEq, false_iff]
    omega
  · rename_i h
    simp only [Option.some.injEq]
    omega

theorem bmod_small {n : Nat} (h : n < 2 ^ 31) : ((n + 1 : Nat) - 1 : Int).bmod (2 ^ 32) = n := by
  rw [Int.bmod_eq_of_le (by omega) (by omega)]
  omega

theorem bmod_large {n : Nat} (h₁ : 2 ^ 31 ≤ n) (h₂ : n < 2 ^ 32) :
    ((n + 1 : Nat) - 1 : Int).bmod (2 ^ 32) < 0 := by
  rw [Int.bmod_def]
  split <;> omega

/-- The name of the plugin in slot `i`, by its id. -/
theorem pluginGetName_spec {s : State} {i : Nat} {h : Handle} (hi : i < s.pluginsCount)
    (hs : s.slot i = some h) (hid : i + 1 < 2 ^ 32) :
    pluginGetName s (i + 1) = some h.info.name ↔ i < 2 ^ 31 := by
  unfold pluginGetName PLUGIN_ID_INVALID
  rw [if_neg (by omega)]
  by_cases hb : i < 2 ^ 31
  · rw [bmod_small hb, if_neg (by omega), Int.toNat_natCast, hs]
    exact iff_of_true rfl hb
  · rw [if_pos (bmod_large (by omega) (by omega))]
    exact iff_of_false (by simp) hb

theorem slot_lt {s : State} (hi : Inv s) {i : Nat} {h : Handle} (hs : s.slot i = some h) :
    i < s.pluginsCount := by
  unfold State.slot at hs
  obtain ⟨l, hl, hs⟩ := Option.bind_eq_some_iff.mp hs
  rw [← hi.table l hl]
  exact (List.getElem?_eq_some_iff.mp hs).1

/-- Every stored plugin is found when the table is there and each id is that of its slot. -/
theorem found_iff {s : State} (hi : Inv s) :
    Found s ↔ (s.plugins = none → s.pluginsCount = 0) ∧
      ∀ i h, s.slot i = some h → h.info.id = i + 1 ∧ i < 2 ^ 31 := by
  constructor
  · intro hf
    refine ⟨fun hn => ?_, fun i h hs => ?_⟩
    · by_contra hc
      obtain ⟨h, hs, -⟩ := hf 0 (by omega)
      unfold State.slot at hs
      rw [hn] at hs
      cases hs
    · obtain ⟨h', hs', hget, hname⟩ := hf i (slot_lt hi hs)
      rw [hs] at hs'
      cases hs'
      obtain ⟨hid, hlt⟩ := getPluginById_eq_some.mp hget
      have hrange := hi.ids i h hs
      rw [hid] at hname hrange
      exact ⟨hid, (pluginGetName_spec hlt hs hrange).mp hname⟩
  · rintro ⟨hn, hid⟩ i hlt
    cases hpl : s.plugins with
    | none => exact absurd (hn hpl) (by omega)
    | some l =>
      have hlen := hi.table l hpl
      have hil : i < l.length := by omega
      have hs : s.slot i = some l[i] := by
        unfold State.slot
        rw [hpl]
        exact List.getElem?_eq_getElem hil
      obtain ⟨he, hb⟩ := hid i _ hs
      refine ⟨_, hs, getPluginById_eq_some.mpr ⟨he, hlt⟩, ?_⟩
      rw [he]
      exact (pluginGetName_spec hlt hs (by omega)).mpr hb

/-- **One turn of the loop.** The stored plugins are found after it exactly when they were before it
and it is steady. -/
theorem found_step (s : State) (e : Entry) (s' : State) (hi : Inv s)
    (hs : loading.step e s = some s') : Found s' ↔ Found s ∧ Steady s e := by
  rw [found_iff hi, found_iff (inv_keeps s e s' hi trivial hs)]
  cases loadEntry_turn hi hs with
  | failed plugins count capacity counter steady =>
    have hslot : ∀ i, s'.slot i = s.slot i := fun i => by unfold State.slot; rw [plugins]
    simp only [hslot, plugins, count, steady, and_true]
  | stored h l old length plugins count capacity id counter table steady =>
    have hslot : ∀ i, s'.slot i = if i = s.pluginsCount then some h else s.slot i := fun i => by
      rw [← slot_append length h old i]
      unfold State.slot
      rw [plugins, Option.bind_some]
    rw [steady]
    constructor
    · rintro ⟨-, hid⟩
      obtain ⟨h₁, h₂⟩ := hid s.pluginsCount h (by rw [hslot, if_pos rfl])
      rw [id] at h₁
      refine ⟨⟨table, fun i k hk => hid i k ?_⟩, by omega, h₂⟩
      have hlt := slot_lt hi hk
      rw [hslot, if_neg (by omega), hk]
    · rintro ⟨⟨-, hid⟩, h₁, h₂⟩
      refine ⟨fun hn => absurd (plugins.symm.trans hn) (by simp), fun i k hk => ?_⟩
      rw [hslot] at hk
      split at hk
      · rename_i he
        cases hk
        rw [id, he]
        exact ⟨by omega, h₂⟩
      · exact hid i k hk
  | dropped plugins count capacity counter steady =>
    have hslot : ∀ i, s'.slot i = none := fun i => by unfold State.slot; rw [plugins]; rfl
    rw [steady, count]
    constructor
    · rintro ⟨hn, -⟩
      have h0 := hn plugins
      refine ⟨⟨fun _ => h0, fun i h hk => ?_⟩, h0⟩
      have := slot_lt hi hk
      omega
    · rintro ⟨-, h0⟩
      exact ⟨fun _ => h0, fun i h hk => by rw [hslot] at hk; cases hk⟩

/-! ## After the loading loop -/

/-- A slot has the id of its position or was freed. -/
structure Settled (s : State) : Prop where
  table : ∀ l, s.plugins = some l → l.length = s.pluginsCount
  slots : ∀ i h, s.slot i = some h → (h.info.id = i + 1 ∧ i < 2 ^ 31) ∨ h.info = Handle.zero.info

theorem settled_of_found {s : State} (hi : Inv s) (hf : Found s) : Settled s where
  table := hi.table
  slots := fun i h hs => .inl (((found_iff hi).mp hf).2 i h hs)

/-- The slots after one of them is written. -/
theorem slot_set (p : Option (List Handle)) (i j : Nat) (h : Handle) :
    (p.map (·.set i h)).bind (·[j]?) =
      if j = i then (p.bind (·[i]?)).map fun _ => h else p.bind (·[j]?) := by
  cases p with
  | none => simp
  | some l =>
    simp only [Option.map_some, Option.bind_some, List.getElem?_set, eq_comm (a := i)]
    split
    · rename_i he
      subst he
      by_cases hj : j < l.length
      · simp [hj]
      · simp [hj]
    · rfl

/-- Writing a slot whose plugin keeps its info, or is freed, keeps the table settled. -/
theorem Settled.set {s s' : State} (hs : Settled s) {i : Nat} {h k : Handle}
    (hslot : s.slot i = some h) (hk : k.info = h.info ∨ k.info = Handle.zero.info)
    (hp : s'.plugins = s.plugins.map (·.set i k)) (hc : s'.pluginsCount = s.pluginsCount) :
    Settled s' := by
  refine ⟨fun l hl => ?_, fun j m hm => ?_⟩
  · rw [hp] at hl
    obtain ⟨l', hl', rfl⟩ := Option.map_eq_some_iff.mp hl
    rw [List.length_set, hc]
    exact hs.table l' hl'
  · unfold State.slot at hm
    rw [hp, slot_set] at hm
    split at hm
    · rename_i he
      subst he
      obtain ⟨-, -, rfl⟩ := Option.map_eq_some_iff.mp hm
      rcases hk with hk | hk
      · rw [hk]; exact hs.slots j h hslot
      · exact .inr hk
    · exact hs.slots j m hm

/-- The operation leaves the plugin's identity alone and calls only the plugin's functions. -/
def Operation.Local {ρ : Type} (op : Operation ρ) : Prop :=
  ∀ h, (op h).2.1.info = h.info ∧ ∀ c ∈ (op h).2.2, c.Of h.funcs

theorem callOf_of {f : Funcs} {g : Nat → Call} {fn : Option Nat} {c : Call}
    (hg : ∀ lib, fn = some lib → (g lib).Of f) (hc : c ∈ callOf g fn) : c.Of f := by
  unfold callOf at hc
  obtain ⟨lib, hl, rfl⟩ := List.mem_map.mp hc
  exact hg lib (Option.mem_toList.mp hl)

theorem initializeFn_of {f : Funcs} {c : Call} (hc : c ∈ callOf .initializeFn f.initializeFn) :
    c.Of f := @callOf_of f .initializeFn f.initializeFn c (fun _ h => h) hc

theorem startFn_of {f : Funcs} {c : Call} (hc : c ∈ callOf .startFn f.startFn) : c.Of f :=
  @callOf_of f .startFn f.startFn c (fun _ h => h) hc

theorem stopFn_of {f : Funcs} {c : Call} (hc : c ∈ callOf .stopFn f.stopFn) : c.Of f :=
  @callOf_of f .stopFn f.stopFn c (fun _ h => h) hc

theorem shutdownFn_of {f : Funcs} {c : Call} (hc : c ∈ callOf .shutdownFn f.shutdownFn) :
    c.Of f := @callOf_of f .shutdownFn f.shutdownFn c (fun _ h => h) hc

theorem shutdownHandle_local : shutdownHandle.Local := by
  intro h
  unfold shutdownHandle
  split
  · exact ⟨rfl, fun c hc => by cases hc⟩
  · refine ⟨rfl, fun c hc => ?_⟩
    rcases List.mem_append.mp hc with hc | hc
    · split at hc
      · exact stopFn_of hc
      · cases hc
    · exact shutdownFn_of hc

theorem initializeHandle_local (ret : Int) : (initializeHandle ret).Local := by
  intro h
  unfold initializeHandle
  split
  · exact ⟨rfl, fun c hc => by cases hc⟩
  split
  · exact ⟨rfl, fun c hc => by cases hc⟩
  split
  · exact ⟨rfl, fun c hc => initializeFn_of hc⟩
  · refine ⟨rfl, fun c hc => ?_⟩
    rcases List.mem_append.mp hc with hc | hc
    · exact initializeFn_of hc
    · exact startFn_of hc

theorem startHandle_local (ret : Int) : (startHandle ret).Local := by
  intro h
  unfold startHandle
  split
  · exact ⟨rfl, fun c hc => by cases hc⟩
  split
  · exact ⟨rfl, fun c hc => by cases hc⟩
  split
  · exact ⟨rfl, fun c hc => startFn_of hc⟩
  · exact ⟨rfl, fun c hc => startFn_of hc⟩

theorem stopHandle_local : stopHandle.Local := by
  intro h
  unfold stopHandle
  split
  · exact ⟨rfl, fun c hc => by cases hc⟩
  split
  · exact ⟨rfl, fun c hc => by cases hc⟩
  · exact ⟨rfl, fun c hc => stopFn_of hc⟩

theorem rebootHandle_local (action : Nat) : (rebootHandle action).Local := by
  intro h
  unfold rebootHandle
  split
  · exact ⟨rfl, fun c hc => by cases hc⟩
  split
  · split
    · exact ⟨rfl, fun c hc => by cases hc⟩
    · exact ⟨rfl, fun c hc => startFn_of hc⟩
  split
  · exact ⟨rfl, fun c hc => by cases hc⟩
  · exact ⟨rfl, fun c hc => stopFn_of hc⟩

section Operations

variable {ρ : Type} {invalid notFound : ρ} {op : Operation ρ} {s : State}

/-- A local operation, called with any id, keeps the table settled. -/
theorem onPlugin_settled (hop : op.Local) (hs : Settled s) {id : Nat} {s' : State}
    (h : (onPlugin invalid notFound op id s).map (·.2) = some s') : Settled s' := by
  unfold onPlugin at h
  split at h
  · cases h; exact hs
  · cases hget : getPluginById s id with
    | none => rw [hget] at h; cases h; exact hs
    | some i =>
      simp only [hget, Option.map_map] at h
      obtain ⟨k, hslot, rfl⟩ := Option.map_eq_some_iff.mp h
      exact hs.set hslot (.inl (hop k).1) rfl rfl

/-- A local operation, called with the id of slot `i`, acts on that slot. -/
theorem onPlugin_actsOn (hop : op.Local) {i : Nat} {h : Handle} (hlt : i < s.pluginsCount)
    (hslot : s.slot i = some h) (hid : h.info.id = i + 1) :
    ActsOn op s i h (onPlugin invalid notFound op h.info.id s) := by
  have hget : getPluginById s h.info.id = some i := getPluginById_eq_some.mpr ⟨hid, hlt⟩
  unfold onPlugin
  rw [if_neg (by rw [hid]; exact Nat.succ_ne_zero i), hget]
  simp only [hslot, Option.map_some]
  refine ⟨_, rfl, ?_, fun j hj => ?_, rfl, (hop h).2⟩
  · unfold State.slot at hslot ⊢
    rw [slot_set, if_pos rfl, hslot]
    rfl
  · unfold State.slot
    rw [slot_set, if_neg hj]

end Operations

/-- The steps after the loading loop keep the table settled. -/
theorem settled_keeps : manager.Keeps (fun _ _ => True) Settled := by
  intro s a s' hs _ h
  cases a with
  | boot i initRet startRet =>
    obtain ⟨k, hslot, rfl⟩ := bootSlot_some h
    refine hs.set hslot ?_ rfl rfl
    rcases bootHandle_handle initRet startRet k with he | he
    · exact .inl (by rw [he])
    · exact .inr (by rw [he])
  | shutdown id => exact onPlugin_settled shutdownHandle_local hs h
  | initializeP id ret => exact onPlugin_settled (initializeHandle_local ret) hs h
  | start id ret => exact onPlugin_settled (startHandle_local ret) hs h
  | stop id => exact onPlugin_settled stopHandle_local hs h
  | reboot id action => exact onPlugin_settled (rebootHandle_local action) hs h

/-- What the search of `plugin_get_p_id` returns is the id of the first plugin with the name. -/
theorem findId_ne_zero {stale : Nat → CStr} {name : CStr} {l : List Handle}
    (h : findId stale name l ≠ PLUGIN_ID_INVALID) :
    ∃ i : Nat, ∃ k : Handle, l[i]? = some k ∧ k.info.id = findId stale name l ∧
      k.info.name.map (Name.text stale) = some name ∧
      ∀ j < i, ∀ m : Handle, l[j]? = some m → m.info.name.map (Name.text stale) ≠ some name := by
  induction l with
  | nil => exact absurd rfl h
  | cons x t ih =>
    unfold findId at h ⊢
    by_cases hx : x.info.name.map (Name.text stale) = some name
    · rw [if_pos hx]
      exact ⟨0, x, rfl, rfl, hx, fun j hj => absurd hj (Nat.not_lt_zero j)⟩
    · rw [if_neg hx] at h ⊢
      obtain ⟨i, k, hk, hid, hname, hfirst⟩ := ih h
      refine ⟨i + 1, k, hk, hid, hname, fun j hj m hm => ?_⟩
      cases j with
      | zero => cases hm; exact hx
      | succ j => exact hfirst j (by omega) m hm

/-- **Lookup by name.** In a settled table it selects the right plugin. -/
theorem Settled.byName {s : State} (hs : Settled s) (stale : Nat → CStr) : ByName stale s := by
  intro name id hget hne
  have hget' := hget
  unfold pluginGetPId at hget
  by_cases hc : s.pluginsCount = 0
  · simp only [hc, ↓reduceIte, Option.some.injEq] at hget
    exact absurd hget.symm hne
  simp only [hc, ↓reduceIte] at hget
  obtain ⟨l, hl, hfind⟩ := Option.map_eq_some_iff.mp hget
  obtain ⟨i, h, hi, hid, hname, hfirst⟩ := findId_ne_zero (hfind ▸ hne)
  have hlt : i < s.pluginsCount := hs.table l hl ▸ (List.getElem?_eq_some_iff.mp hi).1
  have hslots : ∀ j, s.slot j = l[j]? := fun j => by unfold State.slot; rw [hl]; rfl
  have hslot : s.slot i = some h := by rw [hslots, hi]
  rw [hfind] at hid
  have hpos : h.info.id = i + 1 ∧ i < 2 ^ 31 := by
    rcases hs.slots i h hslot with hp | hz
    · exact hp
    · -- A freed slot has no name.
      rw [hz] at hname
      cases hname
  refine ⟨i, h, hslot, hid, hname, fun j hj k hk => hfirst j hj k (by rw [← hslots, hk]), ?_,
    fun dlsym fnName => ?_⟩
  · refine ⟨?_, onPlugin_actsOn shutdownHandle_local hlt hslot hpos.1,
      fun ret => onPlugin_actsOn (initializeHandle_local ret) hlt hslot hpos.1,
      fun ret => onPlugin_actsOn (startHandle_local ret) hlt hslot hpos.1,
      onPlugin_actsOn stopHandle_local hlt hslot hpos.1,
      fun action => onPlugin_actsOn (rebootHandle_local action) hlt hslot hpos.1⟩
    rw [hpos.1]
    exact (pluginGetName_spec hlt hslot (by omega)).mpr hpos.2
  · unfold pluginBridgeGetFnPtr
    rw [hget']
    simp only [getPluginById_eq_some.mpr ⟨hid ▸ hpos.1, hlt⟩, hslot, Option.map_some]

/-- **Ids and positions.** For every listing of the plugin directory and all outcomes of loading:
after the loading loop every stored plugin is found under its own id, and from then on the lookup by
name selects the right plugin, if and only if every turn of the loop is steady. -/
theorem ids_right_iff {hk : HeapKit.State} {es : List Entry} {s : State}
    (hr : loading.run es (State.init hk) = some s) :
    Right s ↔ loading.Meets Steady es (State.init hk) := by
  have hi : Inv s := inv_keeps.run_all (inv_init hk) hr
  have hf : Found s ↔ loading.Meets Steady es (State.init hk) := by
    rw [Machine.iff_meets inv_keeps found_step (inv_init hk) hr]
    exact and_iff_right fun i h => absurd h (Nat.not_lt_zero i)
  rw [← hf]
  refine ⟨fun h => h.1, fun h => ⟨h, fun stale as s' hrun => ?_⟩⟩
  exact (settled_keeps.run_all (settled_of_found hi h) hrun).byName stale

/-- A plugin directory whose manifest names the plugin `name`. -/
def pluginDir (name : CStr) (dlopen : Bool) : Entry where
  isDir := true
  dName := name
  handleAlloc := true
  manifest := some ("Name=".toList ++ name ++ "\nCode=7\n--mode=fast\n".toList)
  paramAlloc := fun _ => true
  data := some "struct Point\nfield x int\nend\n".toList
  structName := fun _ => []
  instanceAlloc := fun _ => true
  stubs := fun _ => true
  dlopen := dlopen
  initializeSym := true
  startSym := true
  stopSym := true
  shutdownSym := true
  grow := true

/-- No types are registered yet. -/
def noTypes : HeapKit.State := ⟨[], HeapKit.StrHeap.empty⟩

/-- Two plugins that load are found under their ids. -/
theorem ids_right_iff_two :
    ∃ s, loading.run [pluginDir ['a'] true, pluginDir ['b'] true] (State.init noTypes) = some s ∧
      s.pluginsCount = 2 ∧ Right s := by
  have hrun : (loading.run [pluginDir ['a'] true, pluginDir ['b'] true] (State.init noTypes)).any
      (fun s => s.pluginsCount = 2) = true := by decide +kernel
  have hfirst : (loading.step (pluginDir ['a'] true) (State.init noTypes)).all
      (fun s => s.lost = 0 ∧ s.pluginsCount = 1) = true := by decide +kernel
  obtain ⟨s, hs, hc⟩ := Option.any_eq_true _ _ |>.mp hrun
  refine ⟨s, hs, by simpa using hc, (ids_right_iff hs).mpr ⟨?_, fun t ht => ⟨?_, fun _ _ => trivial⟩⟩⟩
  · rintro - - h g -
    rw [if_neg fun h => absurd h.2 (by decide)]
    exact ⟨rfl, by decide⟩
  · rintro - - h g -
    rw [ht] at hfirst
    obtain ⟨h₁, h₂⟩ : t.lost = 0 ∧ t.pluginsCount = 1 := by simpa using hfirst
    rw [if_neg fun h => absurd h.2 (by decide), h₁, h₂]
    exact ⟨rfl, by decide⟩

/-- **A plugin under a lost id.** The first plugin takes id 1 and its `dlopen` fails. The second
loads with id 2 into the first slot: the id that its name gives is not found. -/
theorem lost_id_not_found :
    ∃ s, loading.run [pluginDir ['a'] false, pluginDir ['b'] true] (State.init noTypes) = some s ∧
      s.pluginsCount = 1 ∧ pluginGetPId (fun _ => []) s (some ['b']) = some 2 ∧
      getPluginById s 2 = none ∧ ¬ Right s := by
  have hrun : (loading.run [pluginDir ['a'] false, pluginDir ['b'] true] (State.init noTypes)).any
      (fun s => s.pluginsCount = 1 ∧ pluginGetPId (fun _ => []) s (some ['b']) = some 2 ∧
        getPluginById s 2 = none ∧ (s.slot 0).map (fun h => h.info.id) = some 2) = true := by
    decide +kernel
  obtain ⟨s, hs, h⟩ := Option.any_eq_true _ _ |>.mp hrun
  obtain ⟨hc, hid, hget, hslot⟩ := of_decide_eq_true h
  refine ⟨s, hs, hc, hid, hget, fun hr => ?_⟩
  obtain ⟨k, hk, hfound, -⟩ := hr.1 0 (by omega)
  rw [hk, Option.map_some, Option.some.injEq] at hslot
  rw [hslot, hget] at hfound
  cases hfound

end Plugin
end CoreCDTL
