import CoreCDTL.Plugin.Ids

/-!
# The life of a plugin

* `Effect`: what a step after the loading loop does: nothing, or one operation on one slot.
* `Table`: each slot holds the functions of a library of its own, or was freed. Every step keeps it,
  so a call tells the slot that it came from.
* `killed_terminal_iff`: after `plugin_shutdown` has returned `PLUGIN_OP_SUCCESS` for a plugin, it
  stays killed and is not called again exactly when no `plugin_start` and no `pm_action_reboot` is
  made for it that finds the functions it needs: these two do not ask whether a plugin is killed.
-/

namespace CoreCDTL
namespace Plugin

/-! ## What a step does -/

/-- The library that a call goes to. -/
def Call.lib : Call → Nat
  | initializeFn lib | startFn lib | stopFn lib | shutdownFn lib => lib

/-- The step is about slot `i`. -/
def Act.Targets (i : Nat) : Act → Prop
  | boot j _ _ => j = i
  | shutdown id | initializeP id _ | start id _ | stop id | reboot id _ => id = i + 1

/-- The step on the handle of its slot: the handle after it and the calls. -/
def Act.effect : Act → Handle → Handle × List Call
  | boot _ initRet startRet, h => (bootHandle initRet startRet h).2
  | shutdown _, h => (shutdownHandle h).2
  | initializeP _ ret, h => (initializeHandle ret h).2
  | start _ ret, h => (startHandle ret h).2
  | stop _, h => (stopHandle h).2
  | reboot _ action, h => (rebootHandle action h).2

/-- What a step does to the table and the calls. -/
inductive Effect (a : Act) (s s' : State) : Prop where
  /-- There is no plugin with the id. -/
  | missed (same : s' = s) (target : ∀ i < s.pluginsCount, ¬ a.Targets i)
  | hit (i : Nat) (h : Handle) (slot : s.slot i = some h) (target : a.Targets i)
      (plugins : s'.plugins = s.plugins.map (·.set i (a.effect h).1))
      (count : s'.pluginsCount = s.pluginsCount) (loads : s'.loader.loads = s.loader.loads)
      (calls : s'.calls = s.calls ++ (a.effect h).2)

section OnPlugin

variable {ρ : Type} {invalid notFound : ρ} {op : Operation ρ} {id : Nat} {s s' : State} {r : ρ}

/-- An operation finds the plugin with the id, or there is none. -/
theorem onPlugin_some (h : onPlugin invalid notFound op id s = some (r, s')) :
    (s' = s ∧ (r = invalid ∨ r = notFound) ∧ ∀ i < s.pluginsCount, id ≠ i + 1) ∨
      ∃ i k, id = i + 1 ∧ i < s.pluginsCount ∧ s.slot i = some k ∧ r = (op k).1 ∧
        s' = { s with plugins := s.plugins.map (·.set i (op k).2.1)
                      calls := s.calls ++ (op k).2.2 } := by
  unfold onPlugin at h
  split at h
  · rename_i hid
    cases h
    exact .inl ⟨rfl, .inl rfl, fun i _ he => Nat.succ_ne_zero i (he.symm.trans hid)⟩
  · cases hget : getPluginById s id with
    | none =>
      rw [hget] at h
      cases h
      refine .inl ⟨rfl, .inr rfl, fun i hi he => ?_⟩
      rw [getPluginById_eq_some.mpr ⟨he, hi⟩] at hget
      cases hget
    | some i =>
      simp only [hget] at h
      obtain ⟨k, hslot, hk⟩ := Option.map_eq_some_iff.mp h
      cases hk
      obtain ⟨hid, hi⟩ := getPluginById_eq_some.mp hget
      exact .inr ⟨i, k, hid, hi, hslot, rfl, rfl⟩

theorem onPlugin_effect {a : Act} (ha : ∀ i, a.Targets i ↔ id = i + 1)
    (hop : ∀ k, a.effect k = (op k).2)
    (h : (onPlugin invalid notFound op id s).map (·.2) = some s') : Effect a s s' := by
  obtain ⟨⟨r, t⟩, hr, rfl⟩ := Option.map_eq_some_iff.mp h
  rcases onPlugin_some hr with ⟨rfl, -, hid⟩ | ⟨i, k, hid, -, hslot, -, rfl⟩
  · exact .missed rfl fun i hi ht => hid i hi ((ha i).mp ht)
  · exact .hit i k hslot ((ha i).mpr hid) (by rw [hop]) rfl rfl (by rw [hop])

end OnPlugin

/-- **The inversion of a step.** -/
theorem step_effect {a : Act} {s s' : State} (h : a.step s = some s') : Effect a s s' := by
  cases a with
  | boot i initRet startRet =>
    obtain ⟨k, hslot, rfl⟩ := bootSlot_some h
    exact .hit i k hslot rfl rfl rfl rfl rfl
  | shutdown id => exact onPlugin_effect (fun _ => Iff.rfl) (fun _ => rfl) h
  | initializeP id ret => exact onPlugin_effect (fun _ => Iff.rfl) (fun _ => rfl) h
  | start id ret => exact onPlugin_effect (fun _ => Iff.rfl) (fun _ => rfl) h
  | stop id => exact onPlugin_effect (fun _ => Iff.rfl) (fun _ => rfl) h
  | reboot id action => exact onPlugin_effect (fun _ => Iff.rfl) (fun _ => rfl) h

theorem bootHandle_calls {initRet startRet : Int} {h : Handle} {c : Call}
    (hc : c ∈ (bootHandle initRet startRet h).2.2) : c.Of h.funcs := by
  unfold bootHandle at hc
  simp only at hc
  split at hc
  · exact initializeFn_of hc
  split at hc
  · simp only [List.mem_append] at hc
    rcases hc with (hc | hc) | hc
    · exact initializeFn_of hc
    · exact startFn_of hc
    · exact shutdownFn_of hc
  · rcases List.mem_append.mp hc with hc | hc
    · exact initializeFn_of hc
    · exact startFn_of hc

/-- A step calls only functions of the plugin. -/
theorem Act.effect_calls {a : Act} {h : Handle} {c : Call} (hc : c ∈ (a.effect h).2) :
    c.Of h.funcs := by
  cases a with
  | boot i initRet startRet => exact bootHandle_calls hc
  | shutdown id => exact (shutdownHandle_local h).2 c hc
  | initializeP id ret => exact (initializeHandle_local ret h).2 c hc
  | start id ret => exact (startHandle_local ret h).2 c hc
  | stop id => exact (stopHandle_local h).2 c hc
  | reboot id action => exact (rebootHandle_local action h).2 c hc

/-- A step moves the plugin to a state or frees it. -/
theorem Act.effect_handle (a : Act) (h : Handle) :
    (∃ st, (a.effect h).1 = { h with state := st }) ∨ (a.effect h).1 = Handle.zero := by
  cases a <;> simp only [Act.effect]
  case boot i initRet startRet =>
    rcases bootHandle_handle initRet startRet h with he | he
    · exact .inl ⟨_, he⟩
    · exact .inr he
  case shutdown id =>
    unfold shutdownHandle
    split <;> exact .inl ⟨_, rfl⟩
  case initializeP id ret =>
    unfold initializeHandle
    repeat' split
    all_goals exact .inl ⟨_, rfl⟩
  case start id ret =>
    unfold startHandle
    repeat' split
    all_goals exact .inl ⟨_, rfl⟩
  case stop id =>
    unfold stopHandle
    repeat' split
    all_goals exact .inl ⟨_, rfl⟩
  case reboot id action =>
    unfold rebootHandle
    repeat' split
    all_goals exact .inl ⟨_, rfl⟩

/-! ## The libraries of the slots -/

/-- The slot was freed: it has no functions. -/
structure Handle.Freed (h : Handle) : Prop where
  so : h.so = none
  funcs : h.funcs = ⟨none, none, none, none⟩

/-- Each slot has a library of its own or was freed. -/
structure Table (s : State) : Prop where
  length : ∀ l, s.plugins = some l → l.length = s.pluginsCount
  libs : ∀ i h, s.slot i = some h → h.Freed ∨ ∃ lib < s.loader.loads, h.OfLib lib
  apart : ∀ i j h k lib, s.slot i = some h → s.slot j = some k → h.OfLib lib → k.OfLib lib → i = j

theorem freed_zero : Handle.zero.Freed := ⟨rfl, rfl⟩

theorem Handle.Freed.no_call {h : Handle} (hf : h.Freed) (c : Call) : ¬ c.Of h.funcs := by
  rw [hf.funcs]
  cases c <;> exact nofun

theorem Handle.OfLib.call {h : Handle} {lib : Nat} (ho : h.OfLib lib) {c : Call}
    (hc : c.Of h.funcs) : c.lib = lib := by
  cases c with
  | initializeFn n => exact Option.some.inj (hc.symm.trans ho.initializeFn)
  | startFn n => exact ho.startFn n hc
  | stopFn n => exact ho.stopFn n hc
  | shutdownFn n => exact ho.shutdownFn n hc

theorem Handle.OfLib.state {h : Handle} {lib : Nat} (ho : h.OfLib lib) (st : PluginState) :
    { h with state := st }.OfLib lib := ⟨ho.so, ho.initializeFn, ho.startFn, ho.stopFn, ho.shutdownFn⟩

/-- A step does not change whose functions a slot has, unless it frees it. -/
theorem Act.effect_ofLib {a : Act} {h : Handle} {lib : Nat} (hk : (a.effect h).1.OfLib lib) :
    h.OfLib lib := by
  rcases a.effect_handle h with ⟨st, he⟩ | he
  · rw [he] at hk
    exact ⟨hk.so, hk.initializeFn, hk.startFn, hk.stopFn, hk.shutdownFn⟩
  · rw [he] at hk
    cases hk.so

namespace Table

variable {s s' : State}

theorem slot_lt (hs : Table s) {i : Nat} {h : Handle} (hslot : s.slot i = some h) :
    i < s.pluginsCount := by
  unfold State.slot at hslot
  obtain ⟨l, hl, hi⟩ := Option.bind_eq_some_iff.mp hslot
  rw [← hs.length l hl]
  exact (List.getElem?_eq_some_iff.mp hi).1

/-- A function of a slot is one of its library. -/
theorem ofLib (hs : Table s) {i : Nat} {h : Handle} (hslot : s.slot i = some h) {c : Call}
    (hc : c.Of h.funcs) : h.OfLib c.lib := by
  rcases hs.libs i h hslot with hf | ⟨lib, -, ho⟩
  · exact absurd hc (hf.no_call c)
  · rw [ho.call hc]
    exact ho

/-- A call tells its slot. -/
theorem call_slot (hs : Table s) {i j : Nat} {h k : Handle} (hi : s.slot i = some h)
    (hj : s.slot j = some k) {c : Call} (hc : c.Of h.funcs) (hc' : c.Of k.funcs) : i = j :=
  hs.apart i j h k c.lib hi hj (hs.ofLib hi hc) (hs.ofLib hj hc')

/-- The slots after a step on slot `i`. -/
theorem slot_hit {a : Act} {i : Nat} {h : Handle} (hslot : s.slot i = some h)
    (plugins : s'.plugins = s.plugins.map (·.set i (a.effect h).1)) (j : Nat) :
    s'.slot j = if j = i then some (a.effect h).1 else s.slot j := by
  unfold State.slot at hslot ⊢
  rw [plugins, slot_set, hslot]
  rfl

theorem keeps : manager.Keeps (fun _ _ => True) Table := by
  intro s a s' hs _ hstep
  cases step_effect hstep with
  | missed same => rw [same]; exact hs
  | hit i h slot target plugins count loads calls =>
    have hslot := slot_hit slot plugins
    -- What a slot holds after the step was there before it, up to the state.
    have hold : ∀ j k lib, s'.slot j = some k → k.OfLib lib → ∃ k', s.slot j = some k' ∧
        k'.OfLib lib := by
      intro j k lib hk ho
      rw [hslot] at hk
      split at hk
      · rename_i he
        cases hk
        exact ⟨h, he ▸ slot, Act.effect_ofLib ho⟩
      · exact ⟨k, hk, ho⟩
    refine ⟨fun l hl => ?_, fun j k hk => ?_, fun j₁ j₂ k₁ k₂ lib hk₁ hk₂ ho₁ ho₂ => ?_⟩
    · rw [plugins] at hl
      obtain ⟨l', hl', rfl⟩ := Option.map_eq_some_iff.mp hl
      rw [List.length_set, count]
      exact hs.length l' hl'
    · rw [hslot] at hk
      rw [loads]
      split at hk
      · cases hk
        rcases a.effect_handle h with ⟨st, he⟩ | he
        · rw [he]
          rcases hs.libs i h slot with hf | ⟨lib, hlt, ho⟩
          · exact .inl ⟨hf.so, hf.funcs⟩
          · exact .inr ⟨lib, hlt, ho.state st⟩
        · rw [he]
          exact .inl freed_zero
      · exact hs.libs j k hk
    · obtain ⟨k₁', hk₁', ho₁'⟩ := hold j₁ k₁ lib hk₁ ho₁
      obtain ⟨k₂', hk₂', ho₂'⟩ := hold j₂ k₂ lib hk₂ ho₂
      exact hs.apart j₁ j₂ k₁' k₂' lib hk₁' hk₂' ho₁' ho₂'

end Table

/-! ## After the loading loop -/

/-- The table before the second loop of `plugin_init`: every slot holds a plugin that was loaded and
not yet called. -/
structure Loaded (s : State) : Prop extends Table s where
  plugin : ∀ i h, s.slot i = some h → h.state = .alive ∧ ∃ lib, h.OfLib lib
  calls : s.calls = []

/-- A turn of the loading loop adds at most one plugin, with a new library. -/
theorem loadEntry_slots {e : Entry} {s s' : State} (hi : Inv s) (hs : loadEntry e s = some s') :
    s'.calls = s.calls ∧ s.loader.loads ≤ s'.loader.loads ∧ ∀ i k, s'.slot i = some k →
      s.slot i = some k ∨ (i = s.pluginsCount ∧ k.OfLib s.loader.loads ∧ k.state = .alive ∧
        s.loader.loads < s'.loader.loads) := by
  have hloads : ∀ {r : Option Handle} {g : Loader}, pluginLoad e s.loader = some (r, g) →
      s.loader.loads < g.loads := by
    intro r g load
    cases pluginLoad_end load <;> omega
  have hnew : ∀ {h : Handle} {g : Loader}, pluginLoad e s.loader = some (some h, g) →
      ∀ l, s.plugins.getD [] = l → l.length = s.pluginsCount → ∀ i k,
        (l ++ [h])[i]? = some k → s.slot i = some k ∨ (i = s.pluginsCount ∧
          k.OfLib s.loader.loads ∧ k.state = .alive ∧ s.loader.loads < g.loads) := by
    intro h g load l hl hlen i k hk
    rw [slot_append hlen h hl] at hk
    split at hk
    · rename_i he
      cases hk
      cases pluginLoad_end load with
      | loaded h takes counter data loads id state lib => exact .inr ⟨he, lib, state, by omega⟩
    · exact .inl hk
  have hcase := loadEntry_case e s
  rw [hs] at hcase
  cases hcase with
  | skipped _ => exact ⟨rfl, Nat.le_refl _, fun i k hk => .inl hk⟩
  | failed g dir load => exact ⟨rfl, Nat.le_of_lt (hloads load), fun i k hk => .inl hk⟩
  | stored h g l dir load room table =>
    exact ⟨rfl, Nat.le_of_lt (hloads load), hnew load l (by rw [table]; rfl) (hi.table l table)⟩
  | grown h g dir load full grow =>
    exact ⟨rfl, Nat.le_of_lt (hloads load), hnew load _ rfl (hi.length_full full).1⟩
  | dropped h g dir load full grow =>
    exact ⟨rfl, Nat.le_of_lt (hloads load), fun i k hk => nomatch hk⟩

/-- Every run of the loading loop ends with such a table. -/
theorem loaded_of_run {hk : HeapKit.State} {es : List Entry} {s : State}
    (hr : loading.run es (State.init hk) = some s) : Loaded s := by
  have hkeep : loading.Keeps (fun _ _ => True) fun s => Inv s ∧ Loaded s := by
    rintro s e s' ⟨hi, hl⟩ _ hs
    have hi' := inv_keeps s e s' hi trivial hs
    obtain ⟨hcalls, hloads, hslots⟩ := loadEntry_slots hi hs
    refine ⟨hi', ⟨hi'.table, fun i h hk => ?_, fun i j h k lib hh hk ho₁ ho₂ => ?_⟩,
      fun i h hk => ?_, hcalls.trans hl.calls⟩
    · rcases hslots i h hk with hk | ⟨-, ho, -, hlt⟩
      · rcases hl.libs i h hk with hf | ⟨lib, hlt, ho⟩
        · exact .inl hf
        · exact .inr ⟨lib, by omega, ho⟩
      · exact .inr ⟨_, hlt, ho⟩
    · -- The new library is not one of the old ones.
      have hold : ∀ i k, s.slot i = some k → k.OfLib lib → lib < s.loader.loads := by
        intro i k hk ho
        rcases hl.libs i k hk with hf | ⟨lib', hlt, ho'⟩
        · cases hf.so.symm.trans ho.so
        · cases ho.so.symm.trans ho'.so
          exact hlt
      have hlib : ∀ {k : Handle} {n : Nat}, k.OfLib n → k.OfLib lib → n = lib := fun h₁ h₂ =>
        Option.some.inj (h₁.so.symm.trans h₂.so)
      rcases hslots i h hh with hh | ⟨hi₁, ho₁', -⟩ <;> rcases hslots j k hk with hk | ⟨hj₁, ho₂', -⟩
      · exact hl.apart i j h k lib hh hk ho₁ ho₂
      · have h₁ := hold i h hh ho₁
        have h₂ := hlib ho₂' ho₂
        omega
      · have h₁ := hold j k hk ho₂
        have h₂ := hlib ho₁' ho₁
        omega
      · omega
    · rcases hslots i h hk with hk | ⟨-, ho, hst, -⟩
      · exact hl.plugin i h hk
      · exact ⟨hst, _, ho⟩
  refine (hkeep.run_all ⟨inv_init hk, ⟨fun l hl => ?_, ?_, ?_⟩, ?_, rfl⟩ hr).2
  · cases hl
  · exact fun i h hh => nomatch hh
  · exact fun i j h k lib hh => nomatch hh
  · exact fun i h hh => nomatch hh

/-! ## Killed plugins -/

/-- The step calls a killed plugin with the id and the functions `f`, or takes it for a new one. -/
def Act.Revives (id : Nat) (f : Funcs) : Act → Prop
  | boot i _ _ => id = i + 1
  | start id' _ => id' = id ∧ f.startFn ≠ none
  | reboot id' _ => id' = id ∧ f.startFn ≠ none ∧ f.stopFn ≠ none
  | _ => False

/-- The plugin in slot `i` is killed, and none of the functions `f` was called since `s₀`. -/
structure Dead (s₀ : State) (i : Nat) (f : Funcs) (s : State) : Prop where
  killed : ∃ h, s.slot i = some h ∧ h.state = .killed ∧ h.funcs = f
  calls : ∃ new, s.calls = s₀.calls ++ new ∧ ∀ c ∈ new, ¬ c.Of f

/-- What a step does to a killed plugin. -/
theorem effect_killed {a : Act} {i : Nat} {h : Handle} (hk : h.state = .killed)
    (ht : a.Targets i) :
    (¬ a.Revives (i + 1) h.funcs → a.effect h = (h, [])) ∧
      (a.Revives (i + 1) h.funcs →
        (a.effect h).1.state ≠ .killed ∨ ∃ c ∈ (a.effect h).2, c.Of h.funcs) := by
  cases a with
  | boot j initRet startRet =>
    cases ht
    refine ⟨fun hr => absurd rfl hr, fun _ => .inl ?_⟩
    rcases bootHandle_handle initRet startRet h with he | he
    · exact fun h => by cases (congrArg Handle.state he).symm.trans h
    · exact fun h => by cases (congrArg Handle.state he).symm.trans h
  | shutdown id => exact ⟨fun _ => by simp [Act.effect, shutdownHandle, hk], fun hr => nomatch hr⟩
  | initializeP id ret =>
    exact ⟨fun _ => by simp [Act.effect, initializeHandle, hk], fun hr => nomatch hr⟩
  | stop id => exact ⟨fun _ => by simp [Act.effect, stopHandle, hk], fun hr => nomatch hr⟩
  | start id ret =>
    cases ht
    cases hf : h.funcs.startFn with
    | none =>
      refine ⟨fun _ => by simp [Act.effect, startHandle, hk, hf], fun hr => absurd hf hr.2⟩
    | some lib =>
      refine ⟨fun hr => absurd ⟨rfl, by simp [hf]⟩ hr, fun _ => .inr ⟨.startFn lib, ?_, hf⟩⟩
      by_cases hret : ret = 0
      · simp [Act.effect, startHandle, hk, hf, hret, callOf]
      · simp [Act.effect, startHandle, hk, hf, hret, callOf]
  | reboot id action =>
    cases ht
    cases hstart : h.funcs.startFn with
    | none =>
      refine ⟨fun _ => by simp [Act.effect, rebootHandle, hstart], fun hr => absurd hstart hr.2.1⟩
    | some lib =>
      cases hstop : h.funcs.stopFn with
      | none =>
        refine ⟨fun _ => by simp [Act.effect, rebootHandle, hstop], fun hr => absurd hstop hr.2.2⟩
      | some lib' =>
        refine ⟨fun hr => absurd ⟨rfl, by simp [hstart], by simp [hstop]⟩ hr, fun _ => .inr ?_⟩
        by_cases hact : action = 1
        · exact ⟨.startFn lib, by simp [Act.effect, rebootHandle, hk, hstart, hstop, hact, callOf],
            hstart⟩
        · exact ⟨.stopFn lib', by simp [Act.effect, rebootHandle, hk, hstart, hstop, hact, callOf],
            hstop⟩

/-- **One step.** It leaves a dead plugin dead exactly when it does not revive it. -/
theorem dead_step {s₀ s s' : State} {i : Nat} {f : Funcs} {a : Act} (hs : Table s)
    (hd : Dead s₀ i f s) (hstep : manager.step a s = some s') :
    Dead s₀ i f s' ↔ ¬ a.Revives (i + 1) f := by
  obtain ⟨⟨h, hslot, hk, rfl⟩, new, hnew, hnone⟩ := hd
  have htarget : a.Revives (i + 1) h.funcs → a.Targets i := by
    intro hr
    cases a with
    | boot j _ _ => exact (Nat.succ.inj hr).symm
    | start id _ => exact hr.1
    | reboot id _ => exact hr.1
    | shutdown _ | initializeP _ _ | stop _ => cases hr
  cases step_effect hstep with
  | missed same target =>
    rw [same]
    refine iff_of_true ⟨⟨h, hslot, hk, rfl⟩, new, hnew, hnone⟩ fun hr => ?_
    exact target i (hs.slot_lt hslot) (htarget hr)
  | hit j k slot target plugins count loads calls =>
    have hslots := Table.slot_hit slot plugins i
    by_cases hij : i = j
    · subst hij
      cases hslot.symm.trans slot
      obtain ⟨hkeep, hlose⟩ := effect_killed hk target
      rw [if_pos rfl] at hslots
      constructor
      · rintro ⟨⟨h', hslot', hk', -⟩, new', hnew', hnone'⟩ hr
        cases hslots.symm.trans hslot'
        rcases hlose hr with hl | ⟨c, hc, hof⟩
        · exact hl hk'
        · refine hnone' c ?_ hof
          rw [calls, hnew, List.append_assoc] at hnew'
          rw [← List.append_cancel_left hnew']
          exact List.mem_append_right new hc
      · intro hr
        rw [hkeep hr] at hslots calls
        exact ⟨⟨h, hslots, hk, rfl⟩, new,
          calls.trans ((List.append_nil _).trans hnew), hnone⟩
    · -- The step is about another plugin, whose functions are others.
      rw [if_neg hij] at hslots
      have hother : ∀ c ∈ (a.effect k).2, ¬ c.Of h.funcs := fun c hc hof =>
        hij (hs.call_slot hslot slot hof (Act.effect_calls hc))
      refine iff_of_true ⟨⟨h, hslots.trans hslot, hk, rfl⟩, new ++ (a.effect k).2, ?_, ?_⟩ fun hr => ?_
      · rw [calls, hnew, List.append_assoc]
      · intro c hc
        rcases List.mem_append.mp hc with hc | hc
        · exact hnone c hc
        · exact hother c hc
      · have ht := htarget hr
        cases a <;> simp only [Act.Targets] at ht target <;> omega

/-- `plugin_shutdown` returns success when it kills the plugin. -/
theorem dead_of_shutdown {id : Nat} {s s₁ : State}
    (h : pluginShutdown id s = some (.success, s₁)) :
    ∃ i k, id = i + 1 ∧ s.slot i = some k ∧ Dead s₁ i k.funcs s₁ := by
  rcases onPlugin_some h with ⟨-, hr, -⟩ | ⟨i, k, hid, -, hslot, hr, rfl⟩
  · rcases hr with hr | hr <;> cases hr
  · refine ⟨i, k, hid, hslot, ⟨{ k with state := .killed }, ?_, rfl, rfl⟩, [], by simp, nofun⟩
    have hk : (shutdownHandle k).2.1 = { k with state := .killed } := by
      unfold shutdownHandle at hr ⊢
      split at hr
      · cases hr
      · rename_i hne
        rw [if_neg hne]
    unfold State.slot at hslot ⊢
    rw [slot_set, if_pos rfl, hslot, hk]
    rfl

/-! ## At most one shutdown -/

/-- No killed plugin is revived by the step. -/
def Spares (s : State) (a : Act) : Prop :=
  ∀ i h, s.slot i = some h → h.state = .killed → ¬ a.Revives (i + 1) h.funcs

/-- A shutdown function is called once, and its plugin is killed from then on. -/
structure Once (s : State) : Prop where
  count : ∀ lib, s.calls.count (.shutdownFn lib) ≤ 1
  killed : ∀ lib, .shutdownFn lib ∈ s.calls →
    ∀ i h, s.slot i = some h → h.OfLib lib → h.state = .killed

/-- A step calls a shutdown function once, and then kills or frees the plugin. -/
theorem effect_shutdown (a : Act) (h : Handle) (lib : Nat) :
    (a.effect h).2.count (.shutdownFn lib) ≤ 1 ∧ (.shutdownFn lib ∈ (a.effect h).2 →
      (a.effect h).1.state = .killed ∨ (a.effect h).1 = Handle.zero) := by
  have hinit : ∀ fn, .shutdownFn lib ∉ callOf .initializeFn fn := fun fn => by simp [callOf]
  have hstart : ∀ fn, .shutdownFn lib ∉ callOf .startFn fn := fun fn => by simp [callOf]
  have hstop : ∀ fn, .shutdownFn lib ∉ callOf .stopFn fn := fun fn => by simp [callOf]
  have hshut : ∀ fn, (callOf .shutdownFn fn).count (.shutdownFn lib) ≤ 1 := fun fn => by
    cases fn with
    | none => simp [callOf]
    | some n => exact List.count_le_length
  have never : ∀ {cs : List Call} {k : Handle}, .shutdownFn lib ∉ cs →
      cs.count (.shutdownFn lib) ≤ 1 ∧ (.shutdownFn lib ∈ cs →
        k.state = .killed ∨ k = Handle.zero) := fun hn =>
    ⟨by rw [List.count_eq_zero_of_not_mem hn]; exact Nat.zero_le 1, fun hm => absurd hm hn⟩
  cases a with
  | boot i initRet startRet =>
    simp only [Act.effect, bootHandle]
    split
    · exact never (hinit _)
    split
    · refine ⟨?_, fun _ => .inr rfl⟩
      simp only [List.count_append, List.count_eq_zero_of_not_mem (hinit _),
        List.count_eq_zero_of_not_mem (hstart _), Nat.zero_add]
      exact hshut _
    · exact never (by simp [hinit, hstart])
  | shutdown id =>
    simp only [Act.effect, shutdownHandle]
    split
    · exact never (by simp)
    · refine ⟨?_, fun _ => .inl rfl⟩
      have hs : ∀ p : Prop, [Decidable p] →
          .shutdownFn lib ∉ (if p then callOf .stopFn h.funcs.stopFn else []) := by
        intro p _
        split
        · exact hstop _
        · exact List.not_mem_nil
      rw [List.count_append, List.count_eq_zero_of_not_mem (hs _), Nat.zero_add]
      exact hshut _
  | initializeP id ret =>
    simp only [Act.effect, initializeHandle]
    repeat' split
    · exact never (by simp)
    · exact never (by simp)
    · exact never (hinit _)
    · exact never (by simp [hinit, hstart])
  | start id ret =>
    simp only [Act.effect, startHandle]
    repeat' split
    · exact never (by simp)
    · exact never (by simp)
    · exact never (hstart _)
    · exact never (hstart _)
  | stop id =>
    simp only [Act.effect, stopHandle]
    repeat' split
    · exact never (by simp)
    · exact never (by simp)
    · exact never (hstop _)
  | reboot id action =>
    simp only [Act.effect, rebootHandle]
    repeat' split
    · exact never (by simp)
    · exact never (by simp)
    · exact never (hstart _)
    · exact never (by simp)
    · exact never (hstop _)

/-- Steps that spare the killed plugins call each shutdown function at most once. -/
theorem once_keeps : manager.Keeps Spares fun s => Table s ∧ Once s := by
  rintro s a s' ⟨hs, ho⟩ hspare hstep
  refine ⟨Table.keeps s a s' hs trivial hstep, ?_⟩
  cases step_effect hstep with
  | missed same => rw [same]; exact ho
  | hit i h slot target plugins count loads calls =>
    have hslots := Table.slot_hit slot plugins
    have hshut := effect_shutdown a h
    by_cases hk : h.state = .killed
    · -- A killed plugin is left alone.
      have heff := (effect_killed hk target).1 (hspare i h slot hk)
      rw [heff, List.append_nil] at calls
      refine ⟨by rw [calls]; exact ho.count, fun lib hm j k hj hof => ?_⟩
      rw [calls] at hm
      rw [hslots, heff] at hj
      split at hj
      · cases hj
        exact hk
      · exact ho.killed lib hm j k hj hof
    · have hold : ∀ lib, h.OfLib lib → .shutdownFn lib ∉ s.calls := fun lib hof hm =>
        hk (ho.killed lib hm i h slot hof)
      refine ⟨fun lib => ?_, fun lib hm j k hj hof => ?_⟩
      · rw [calls, List.count_append]
        by_cases hnew : .shutdownFn lib ∈ (a.effect h).2
        · have hof := hs.ofLib slot (Act.effect_calls hnew)
          rw [List.count_eq_zero_of_not_mem (hold lib hof), Nat.zero_add]
          exact (hshut lib).1
        · rw [List.count_eq_zero_of_not_mem hnew]
          exact ho.count lib
      · rw [calls] at hm
        rw [hslots] at hj
        rcases List.mem_append.mp hm with hm | hm
        · split at hj
          · cases hj
            exact absurd hm (hold lib (Act.effect_ofLib hof))
          · exact ho.killed lib hm j k hj hof
        · have hof' := hs.ofLib slot (Act.effect_calls hm)
          split at hj
          · cases hj
            rcases (hshut lib).2 hm with hst | hz
            · exact hst
            · rw [hz] at hof
              cases hof.so
          · rename_i hne
            exact absurd (hs.apart j i k h lib hj slot hof hof') hne

/-- **Killed is terminal.** After `plugin_shutdown` has returned success for a plugin, it stays
killed and none of its functions is called again, whatever the steps, if and only if none of them
revives it. In a run whose steps spare the killed plugins every shutdown function is called at most
once. -/
theorem killed_terminal_iff {hk : HeapKit.State} {es : List Entry} {s₀ s s₁ s₂ : State}
    {as cs : List Act} {id : Nat} (hload : loading.run es (State.init hk) = some s₀)
    (hbefore : manager.run as s₀ = some s) (hshut : pluginShutdown id s = some (.success, s₁))
    (hafter : manager.run cs s₁ = some s₂) :
    ∃ h, s.slot (id - 1) = some h ∧
      ((∀ bs t, bs <+: cs → manager.run bs s₁ = some t → Dead s₁ (id - 1) h.funcs t) ↔
        ∀ a ∈ cs, ¬ a.Revives id h.funcs) ∧
      (manager.Meets Spares (as ++ .shutdown id :: cs) s₀ →
        ∀ lib, s₂.calls.count (.shutdownFn lib) ≤ 1) := by
  have hl := loaded_of_run hload
  have hs : Table s := Table.keeps.run_all hl.toTable hbefore
  have hstep : manager.step (.shutdown id) s = some s₁ := by
    show (pluginShutdown id s).map (·.2) = some s₁
    rw [hshut]
    rfl
  have hs₁ : Table s₁ := Table.keeps s _ s₁ hs trivial hstep
  obtain ⟨i, h, rfl, hslot, hdead⟩ := dead_of_shutdown hshut
  refine ⟨h, hslot, ?_, fun hm => ?_⟩
  · rw [Nat.add_sub_cancel, Machine.prefixes_iff_meets (G := fun _ a => ¬ a.Revives (i + 1) h.funcs)
      (P := Dead s₁ i h.funcs) Table.keeps
      (fun t a t' ht _ hd hstep => dead_step ht hd hstep) hs₁
      (Machine.Meets.of_forall (fun _ _ => trivial) cs s₁) hdead hafter]
    exact ⟨fun hm => hm.mem hafter, fun hm => Machine.Meets.of_mem (fun _ => hm) s₁⟩
  · have hrun : manager.run (as ++ .shutdown (i + 1) :: cs) s₀ = some s₂ :=
      Machine.run_trans hbefore (Machine.run_cons_some.mpr ⟨s₁, hstep, hafter⟩)
    have h₀ : Once s₀ := ⟨fun lib => by rw [hl.calls]; exact Nat.zero_le 1, fun lib hm => by
      rw [hl.calls] at hm
      cases hm⟩
    exact (once_keeps.run ⟨hl.toTable, h₀⟩ hm hrun).2.count

/-- The plugin is initialized and started, shut down, and initialized once more. -/
theorem killed_terminal_initialize :
    ∃ s₀ s s₁ s₂, ∃ h : Handle,
      loading.run [pluginDir ['a'] true] (State.init noTypes) = some s₀ ∧
      manager.run [.boot 0 0 0] s₀ = some s ∧ pluginShutdown 1 s = some (.success, s₁) ∧
      manager.run [.initializeP 1 0] s₁ = some s₂ ∧
      ∀ bs t, bs <+: [.initializeP 1 0] → manager.run bs s₁ = some t → Dead s₁ 0 h.funcs t := by
  have hrun : ((loading.run [pluginDir ['a'] true] (State.init noTypes)).any fun s₀ =>
      (manager.run [.boot 0 0 0] s₀).any fun s => (pluginShutdown 1 s).any fun p =>
        decide (p.1 = .success) && (manager.run [.initializeP 1 0] p.2).isSome) = true := by
    decide +kernel
  obtain ⟨s₀, hload, hrun⟩ := Option.any_eq_true _ _ |>.mp hrun
  obtain ⟨s, hbefore, hrun⟩ := Option.any_eq_true _ _ |>.mp hrun
  obtain ⟨⟨r, s₁⟩, hshut, hrun⟩ := Option.any_eq_true _ _ |>.mp hrun
  obtain ⟨hr, hafter⟩ := Bool.and_eq_true_iff.mp hrun
  obtain ⟨s₂, hafter⟩ := Option.isSome_iff_exists.mp hafter
  cases of_decide_eq_true hr
  obtain ⟨h, -, hiff, -⟩ := killed_terminal_iff hload hbefore hshut hafter
  exact ⟨s₀, s, s₁, s₂, h, hload, hbefore, hshut, hafter, hiff.mpr fun a ha => by
    rw [List.mem_singleton.mp ha]
    exact not_false⟩

/-- **A plugin comes back to life.** `plugin_start` after `plugin_shutdown`: the plugin is alive
again, and the next `plugin_shutdown` calls its shutdown function a second time. -/
theorem killed_plugin_starts :
    ∃ s₀ s s₁ t s₂, loading.run [pluginDir ['a'] true] (State.init noTypes) = some s₀ ∧
      manager.run [.boot 0 0 0] s₀ = some s ∧ pluginShutdown 1 s = some (.success, s₁) ∧
      manager.run [.start 1 0] s₁ = some t ∧ (t.slot 0).map (·.state) = some .alive ∧
      manager.run [.shutdown 1] t = some s₂ ∧ s₂.calls.count (.shutdownFn 0) = 2 := by
  have hrun : ((loading.run [pluginDir ['a'] true] (State.init noTypes)).any fun s₀ =>
      (manager.run [.boot 0 0 0] s₀).any fun s => (pluginShutdown 1 s).any fun p =>
        decide (p.1 = .success) && (manager.run [.start 1 0] p.2).any fun t =>
          decide ((t.slot 0).map (·.state) = some .alive) &&
            (manager.run [.shutdown 1] t).any fun s₂ =>
              decide (s₂.calls.count (.shutdownFn 0) = 2)) = true := by
    decide +kernel
  obtain ⟨s₀, hload, hrun⟩ := Option.any_eq_true _ _ |>.mp hrun
  obtain ⟨s, hbefore, hrun⟩ := Option.any_eq_true _ _ |>.mp hrun
  obtain ⟨⟨r, s₁⟩, hshut, hrun⟩ := Option.any_eq_true _ _ |>.mp hrun
  obtain ⟨hr, hrun⟩ := Bool.and_eq_true_iff.mp hrun
  cases of_decide_eq_true hr
  obtain ⟨t, hstart, hrun⟩ := Option.any_eq_true _ _ |>.mp hrun
  obtain ⟨hst, hrun⟩ := Bool.and_eq_true_iff.mp hrun
  obtain ⟨s₂, hagain, htwice⟩ := Option.any_eq_true _ _ |>.mp hrun
  exact ⟨s₀, s, s₁, t, s₂, hload, hbefore, hshut, hstart, of_decide_eq_true hst, hagain,
    of_decide_eq_true htwice⟩

end Plugin
end CoreCDTL
