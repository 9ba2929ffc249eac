import CoreCDTL.Plugin.Lifecycle

/-!
# What `PLUGIN_STATE_ALIVE` says

`PLUGIN_STATE_ALIVE` is the value 0 that `calloc` and `memset` leave in a handle, and the operations
look at what the plugin's functions return in different ways.

* `watched` is the manager with the history of all calls and what they returned. A label is a step
  with the value that the start function returns where the step itself does not look at it.
* `AliveSound`: a slot in the state alive holds a plugin that was initialized and started with
  success, and was not called since.
* `alive_sound_iff`: in every state after `plugin_init` it holds exactly when no initialize and no
  start function failed there, and each later call is `Sound`.
-/

namespace CoreCDTL
namespace Plugin

/-! ## The history of returns -/

/-- The manager and the calls with their return values, newest first. -/
structure Watched where
  st : State
  events : List (Call × Int)

/-- What a call made by the step returns; the `void` functions count as 0. -/
def Act.ret (startRet : Int) : Act → Call → Int
  | boot _ initRet _, .initializeFn _ => initRet
  | boot _ _ startRet, .startFn _ => startRet
  | initializeP _ ret, .initializeFn _ => ret
  | start _ ret, .startFn _ => ret
  | _, .startFn _ => startRet
  | _, _ => 0

/-- The manager, watched. -/
def watched : Machine Watched (Act × Int) where
  step l w := (manager.step l.1 w.st).map fun s =>
    ⟨s, ((s.calls.drop w.st.calls.length).map fun c => (c, l.1.ret l.2 c)).reverse ++ w.events⟩

/-- The events of a step on a handle. -/
def Act.returned (a : Act) (startRet : Int) (h : Handle) : List (Call × Int) :=
  ((a.effect h).2.map fun c => (c, a.ret startRet c)).reverse

/-- The last call of the initialize function of the library returned 0. -/
def InitOk (lib : Nat) (events : List (Call × Int)) : Prop :=
  (events.find? fun ev => ev.1 = .initializeFn lib) = some (.initializeFn lib, 0)

/-- The plugin of the library was initialized with success; then, if it has a start function, it was
started with success; and it was not called since. -/
structure Running (h : Handle) (lib : Nat) (events : List (Call × Int)) : Prop where
  so : h.so = some lib
  initialized : InitOk lib events
  last : (events.find? fun ev => ev.1.lib = lib) =
    some (if h.funcs.startFn = none then .initializeFn lib else .startFn lib, 0)

/-- Every slot in the state alive holds a plugin that runs. -/
def AliveSound (w : Watched) : Prop :=
  ∀ i h, w.st.slot i = some h → h.state = .alive → ∃ lib, Running h lib w.events

/-- When a step on a plugin leaves the state alive right. `initOk`: its last initialization
succeeded. -/
def Act.SoundOn (startRet : Int) (h : Handle) (initOk : Prop) : Act → Prop
  | initializeP _ ret => h.state.toNat < PluginState.killed.toNat →
      (ret ≠ 0 → h.state ≠ .alive) ∧ (ret = 0 → h.funcs.startFn ≠ none → startRet = 0)
  | start _ ret => h.state ≠ .alive → h.funcs.startFn ≠ none → ret = 0 → initOk
  | reboot _ action => action = 1 → h.state ≠ .alive → h.funcs.startFn ≠ none →
      h.funcs.stopFn ≠ none → startRet = 0 ∧ initOk
  | _ => True

/-- The step is right for the plugin that it is about, if that has not been freed. -/
def Sound (w : Watched) (l : Act × Int) : Prop :=
  ∀ i h lib, w.st.slot i = some h → l.1.Targets i → h.OfLib lib →
    l.1.SoundOn l.2 h (InitOk lib w.events)

/-! ## One step -/

/-- What a watched step does. -/
theorem watched_effect {l : Act × Int} {w w' : Watched} (h : watched.step l w = some w') :
    (w' = w ∧ ∀ i < w.st.pluginsCount, ¬ l.1.Targets i) ∨
      ∃ i k, w.st.slot i = some k ∧ l.1.Targets i ∧
        (∀ j, w'.st.slot j = if j = i then some (l.1.effect k).1 else w.st.slot j) ∧
        w'.st.pluginsCount = w.st.pluginsCount ∧
        w'.events = l.1.returned l.2 k ++ w.events := by
  obtain ⟨s, hs, rfl⟩ := Option.map_eq_some_iff.mp h
  cases step_effect hs with
  | missed same target =>
    subst same
    refine .inl ⟨?_, target⟩
    simp
  | hit i k slot target plugins count loads calls =>
    refine .inr ⟨i, k, slot, target, Table.slot_hit slot plugins, count, ?_⟩
    simp [Act.returned, calls]

theorem table_watched : watched.Keeps (fun _ _ => True) fun w => Table w.st := by
  intro w l w' hw _ h
  obtain ⟨s, hs, rfl⟩ := Option.map_eq_some_iff.mp h
  exact Table.keeps w.st l.1 s hw trivial hs

/-- Events of other libraries do not matter. -/
theorem running_append {h : Handle} {lib : Nat} {evs events : List (Call × Int)}
    (hne : ∀ ev ∈ evs, ev.1.lib ≠ lib) : Running h lib (evs ++ events) ↔ Running h lib events := by
  have hlast : (evs.find? fun ev => ev.1.lib = lib) = none := by
    simpa [List.find?_eq_none] using hne
  have hinit : (evs.find? fun ev => ev.1 = .initializeFn lib) = none := by
    rw [List.find?_eq_none]
    intro ev hev he
    exact hne ev hev (by rw [of_decide_eq_true he]; rfl)
  constructor
  · rintro ⟨h₁, h₂, h₃⟩
    unfold InitOk at h₂
    rw [List.find?_append, hinit, Option.none_or] at h₂
    rw [List.find?_append, hlast, Option.none_or] at h₃
    exact ⟨h₁, h₂, h₃⟩
  · rintro ⟨h₁, h₂, h₃⟩
    refine ⟨h₁, ?_, ?_⟩
    · unfold InitOk
      rw [List.find?_append, hinit, Option.none_or]
      exact h₂
    · rw [List.find?_append, hlast, Option.none_or]
      exact h₃

/-- A step calls only functions of the plugin's library. -/
theorem returned_lib {a : Act} {startRet : Int} {h : Handle} {lib : Nat} (ho : h.OfLib lib)
    {ev : Call × Int} (hev : ev ∈ a.returned startRet h) : ev.1.lib = lib := by
  unfold Act.returned at hev
  obtain ⟨c, hc, rfl⟩ := List.mem_map.mp (List.mem_reverse.mp hev)
  exact ho.call (Act.effect_calls hc)

theorem Handle.OfLib.startFn_cases {h : Handle} {lib : Nat} (ho : h.OfLib lib) :
    h.funcs.startFn = none ∨ h.funcs.startFn = some lib := by
  cases hf : h.funcs.startFn with
  | none => exact .inl rfl
  | some n => exact .inr (by rw [ho.startFn n hf])

section Cons

variable {h : Handle} {lib : Nat} {events : List (Call × Int)}

@[simp] theorem initOk_initializeFn {r : Int} :
    InitOk lib ((.initializeFn lib, r) :: events) ↔ r = 0 := by
  simp [InitOk]

@[simp] theorem initOk_startFn {r : Int} :
    InitOk lib ((.startFn lib, r) :: events) ↔ InitOk lib events := by
  simp [InitOk]

/-- The last call is of the start function. -/
theorem running_startFn (hso : h.so = some lib) (hf : h.funcs.startFn = some lib) {r : Int} :
    Running h lib ((.startFn lib, r) :: events) ↔ r = 0 ∧ InitOk lib events := by
  constructor
  · rintro ⟨-, hinit, hlast⟩
    exact ⟨by simpa [Call.lib, hf] using hlast, initOk_startFn.mp hinit⟩
  · rintro ⟨rfl, hinit⟩
    exact ⟨hso, initOk_startFn.mpr hinit, by simp [Call.lib, hf]⟩

/-- The last call is of the initialize function, and there is no start function. -/
theorem running_initializeFn (hso : h.so = some lib) (hf : h.funcs.startFn = none) {r : Int} :
    Running h lib ((.initializeFn lib, r) :: events) ↔ r = 0 := by
  constructor
  · rintro ⟨-, hinit, -⟩
    exact initOk_initializeFn.mp hinit
  · rintro rfl
    exact ⟨hso, initOk_initializeFn.mpr rfl, by simp [Call.lib, hf]⟩

end Cons

/-- **One operation on its plugin.** It leaves the state alive right exactly when it is sound. -/
theorem effect_sound {a : Act} (ha : ∀ i r₁ r₂, a ≠ .boot i r₁ r₂) {startRet : Int} {h : Handle}
    {lib : Nat} {events : List (Call × Int)} (ho : h.OfLib lib)
    (hr : h.state = .alive → Running h lib events) :
    ((a.effect h).1.state = .alive →
        Running (a.effect h).1 lib (a.returned startRet h ++ events)) ↔
      a.SoundOn startRet h (InitOk lib events) := by
  -- Without a call the plugin runs as before.
  have same : a.effect h = (h, []) → ((a.effect h).1.state = .alive →
      Running (a.effect h).1 lib (a.returned startRet h ++ events)) := by
    intro he
    simpa [Act.returned, he] using hr
  have hso : ∀ st : PluginState, { h with state := st }.so = some lib := fun _ => ho.so
  cases a with
  | boot i r₁ r₂ => exact absurd rfl (ha i r₁ r₂)
  | shutdown id =>
    refine iff_of_true (fun hst => ?_) trivial
    by_cases hk : h.state = .killed <;> simp [Act.effect, shutdownHandle, hk] at hst
  | stop id =>
    by_cases hk : h.state = .alive
    · cases hf : h.funcs.stopFn with
      | none => exact iff_of_true (same (by simp [Act.effect, stopHandle, hk, hf])) trivial
      | some n =>
        refine iff_of_true (fun hst => ?_) trivial
        simp [Act.effect, stopHandle, hk, hf] at hst
    · exact iff_of_true (same (by simp [Act.effect, stopHandle, hk])) trivial
  | initializeP id ret =>
    by_cases hlt : h.state.toNat < PluginState.killed.toNat
    · have hge : ¬ h.state.toNat ≥ PluginState.killed.toNat := Nat.not_le.mpr hlt
      by_cases hret : ret = 0
      · subst hret
        rcases ho.startFn_cases with hf | hf
        · have he : (Act.initializeP id 0).effect h =
              ({ h with state := .alive }, [.initializeFn lib]) := by
            simp [Act.effect, initializeHandle, hge, ho.initializeFn, hf, callOf]
          rw [Act.returned, he]
          refine iff_of_true (fun _ => ?_) fun _ => ⟨fun h => absurd rfl h, fun _ h => absurd hf h⟩
          exact (running_initializeFn (hso .alive) hf).mpr rfl
        · have he : (Act.initializeP id 0).effect h =
              ({ h with state := .alive }, [.initializeFn lib, .startFn lib]) := by
            simp [Act.effect, initializeHandle, hge, ho.initializeFn, hf, callOf]
          rw [Act.returned, he]
          have hrun := @running_startFn _ _ ((.initializeFn lib, 0) :: events) (hso .alive) hf startRet
          simp only [initOk_initializeFn] at hrun
          simp [Act.ret, Act.SoundOn, hlt, hf, hrun]
      · have he : (Act.initializeP id ret).effect h = (h, [.initializeFn lib]) := by
          simp [Act.effect, initializeHandle, hge, ho.initializeFn, hret, callOf]
        rw [Act.returned, he]
        constructor
        · intro hrun _
          refine ⟨fun _ hst => hret ?_, fun h => absurd h hret⟩
          exact initOk_initializeFn.mp (hrun hst).initialized
        · intro hsound hst
          exact absurd hst ((hsound hlt).1 hret)
    · have hge : h.state.toNat ≥ PluginState.killed.toNat := Nat.not_lt.mp hlt
      exact iff_of_true (same (by simp [Act.effect, initializeHandle, hge])) fun h => absurd h hlt
  | start id ret =>
    by_cases hk : h.state = .alive
    · exact iff_of_true (same (by simp [Act.effect, startHandle, hk])) fun hne => absurd hk hne
    rcases ho.startFn_cases with hf | hf
    · exact iff_of_true (same (by simp [Act.effect, startHandle, hk, hf])) fun _ hne => absurd hf hne
    by_cases hret : ret = 0
    · subst hret
      have he : (Act.start id 0).effect h = ({ h with state := .alive }, [.startFn lib]) := by
        simp [Act.effect, startHandle, hk, hf, callOf]
      rw [Act.returned, he]
      have hrun := @running_startFn _ _ events (hso .alive) hf 0
      simp [Act.ret, Act.SoundOn, hk, hf, hrun]
    · refine iff_of_true (fun hst => ?_) fun _ _ h => absurd h hret
      simp [Act.effect, startHandle, hk, hf, hret] at hst
  | reboot id action =>
    rcases ho.startFn_cases with hf | hf
    · exact iff_of_true (same (by simp [Act.effect, rebootHandle, hf])) fun _ _ hne => absurd hf hne
    cases hg : h.funcs.stopFn with
    | none =>
      exact iff_of_true (same (by simp [Act.effect, rebootHandle, hg])) fun _ _ _ hne => absurd hg hne
    | some n =>
      by_cases hact : action = 1
      · by_cases hk : h.state = .alive
        · exact iff_of_true (same (by simp [Act.effect, rebootHandle, hf, hg, hact, hk]))
            fun _ hne => absurd hk hne
        · have he : (Act.reboot id action).effect h =
              ({ h with state := .alive }, [.startFn lib]) := by
            simp [Act.effect, rebootHandle, hk, hf, hg, hact, callOf]
          rw [Act.returned, he]
          have hrun := @running_startFn _ _ events (hso .alive) hf startRet
          simp [Act.ret, Act.SoundOn, hk, hf, hg, hact, hrun]
      · refine iff_of_true (fun hst => ?_) fun h => absurd h hact
        by_cases hk : h.state = .stopped <;>
          simp [Act.effect, rebootHandle, hf, hg, hact, hk] at hst

/-- A step on one plugin does not matter to another. -/
theorem running_other {w : Watched} (hw : Table w.st) {i j : Nat} {h k : Handle} {lib : Nat}
    (hi : w.st.slot i = some h) (ho : h.OfLib lib) (hj : w.st.slot j = some k) (hij : j ≠ i)
    (a : Act) (startRet : Int) :
    (∃ n, Running k n (a.returned startRet h ++ w.events)) ↔ ∃ n, Running k n w.events := by
  have hne : ∀ n, k.so = some n → ∀ ev ∈ a.returned startRet h, ev.1.lib ≠ n := by
    intro n hso ev hev he
    rcases hw.libs j k hj with hf | ⟨n', -, ho'⟩
    · cases hf.so.symm.trans hso
    · cases ho'.so.symm.trans hso
      rw [returned_lib ho hev] at he
      exact hij (hw.apart j i k h n hj hi ho' (he ▸ ho))
  constructor
  · rintro ⟨n, hr⟩
    exact ⟨n, (running_append (hne n hr.so)).mp hr⟩
  · rintro ⟨n, hr⟩
    exact ⟨n, (running_append (hne n hr.so)).mpr hr⟩

/-- A freed plugin that is not alive stays so. -/
theorem effect_freed {a : Act} (ha : ∀ i r₁ r₂, a ≠ .boot i r₁ r₂) {h : Handle} (hf : h.Freed)
    (hst : h.state ≠ .alive) : (a.effect h).1.state ≠ .alive ∧ (a.effect h).2 = [] := by
  refine ⟨?_, List.eq_nil_iff_forall_not_mem.mpr fun c hc => hf.no_call c (Act.effect_calls hc)⟩
  cases a with
  | boot i r₁ r₂ => exact absurd rfl (ha i r₁ r₂)
  | shutdown id => by_cases hk : h.state = .killed <;> simp [Act.effect, shutdownHandle, hk]
  | initializeP id ret =>
    simp only [Act.effect, initializeHandle, hf.funcs, ↓reduceIte]
    split <;> exact hst
  | start id ret => simp [Act.effect, startHandle, hst, hf.funcs]
  | stop id => simp [Act.effect, stopHandle, hst]
  | reboot id action => simp [Act.effect, rebootHandle, hf.funcs, hst]

theorem targets_unique {a : Act} {i j : Nat} (hi : a.Targets i) (hj : a.Targets j) : i = j := by
  cases a <;> simp only [Act.Targets] at hi hj <;> omega

/-- **One operation.** Where the state alive is right, it stays so exactly when the operation is
sound. -/
theorem alive_step {w w' : Watched} {l : Act × Int} (hw : Table w.st) (hs : AliveSound w)
    (hl : ∀ i r₁ r₂, l.1 ≠ .boot i r₁ r₂) (h : watched.step l w = some w') :
    AliveSound w' ↔ Sound w l := by
  rcases watched_effect h with ⟨rfl, hmiss⟩ | ⟨i, k, hk, ht, hslots, -, hevents⟩
  · refine iff_of_true hs fun i h lib hi ht _ => ?_
    exact absurd ht (hmiss i (hw.slot_lt hi))
  rcases hw.libs i k hk with hf | ⟨lib, -, ho⟩
  · have hst : k.state ≠ .alive := fun he => by
      obtain ⟨lib, hr⟩ := hs i k hk he
      cases hf.so.symm.trans hr.so
    obtain ⟨hst', hcalls⟩ := effect_freed hl hf hst
    refine iff_of_true (fun j m hj hm => ?_) fun j m lib hj htj ho => ?_
    · rw [hslots] at hj
      split at hj
      · cases hj
        exact absurd hm hst'
      · rw [hevents, Act.returned, hcalls]
        exact hs j m hj hm
    · cases targets_unique ht htj
      cases hk.symm.trans hj
      cases hf.so.symm.trans ho.so
  · have hrun : k.state = .alive → Running k lib w.events := fun he => by
      obtain ⟨lib', hr⟩ := hs i k hk he
      cases ho.so.symm.trans hr.so
      exact hr
    have hone := @effect_sound _ hl l.2 _ _ _ ho hrun
    constructor
    · intro hs' j m lib' hj htj ho'
      cases targets_unique ht htj
      cases hk.symm.trans hj
      cases ho.so.symm.trans ho'.so
      refine hone.mp fun hst => ?_
      obtain ⟨n, hr⟩ := hs' i _ (by rw [hslots, if_pos rfl]) hst
      rw [hevents] at hr
      have hso := hr.so
      rcases l.1.effect_handle k with ⟨st, he⟩ | he
      · rw [he] at hso
        cases ho.so.symm.trans hso
        exact hr
      · rw [he] at hso
        cases hso
    · intro hsound j m hj hm
      rw [hslots] at hj
      rw [hevents]
      split at hj
      · cases hj
        exact ⟨lib, hone.mpr (hsound i k lib hk ht ho) hm⟩
      · rename_i hij
        exact (running_other hw hk ho hj hij l.1 l.2).mpr (hs j m hj hm)

/-! ## The second loop of `plugin_init` -/

/-- The turns of the loop from slot `n` on, with what the initialize and the start function of each
plugin return. -/
def boots (n : Nat) : List (Int × Int) → List (Act × Int)
  | [] => []
  | (initRet, startRet) :: rets => (.boot n initRet startRet, 0) :: boots (n + 1) rets

/-- Neither function fails. -/
def Fine (r : Int × Int) (h : Handle) : Prop := r.1 = 0 ∧ (h.funcs.startFn ≠ none → r.2 = 0)

/-- The slots below `n` are right. -/
def SoundBelow (n : Nat) (w : Watched) : Prop :=
  ∀ i < n, ∀ h, w.st.slot i = some h → h.state = .alive → ∃ lib, Running h lib w.events

/-- The slots from `n` on are as the loading loop left them. -/
structure Booting (s₀ : State) (n : Nat) (w : Watched) : Prop where
  table : Table w.st
  count : w.st.pluginsCount = s₀.pluginsCount
  rest : ∀ i, n ≤ i → w.st.slot i = s₀.slot i

/-- A turn on a plugin: it runs after it exactly when neither function failed. -/
theorem boot_running (n : Nat) (initRet startRet : Int) {h : Handle} {lib : Nat}
    (ho : h.OfLib lib) (events : List (Call × Int)) :
    let a := Act.boot n initRet startRet
    (a.effect h).1.state = .alive ∧
      ((∃ m, Running (a.effect h).1 m (a.returned 0 h ++ events)) ↔
        Fine (initRet, startRet) h) := by
  intro a
  have hzero : ∀ evs, ¬ ∃ m, Running Handle.zero m evs := by
    rintro evs ⟨m, hr⟩
    cases hr.so
  have hso : { h with state := PluginState.alive }.so = some lib := ho.so
  by_cases hinit : initRet = 0
  · subst hinit
    rcases ho.startFn_cases with hf | hf
    · have he : a.effect h = ({ h with state := .alive }, [.initializeFn lib]) := by
        simp [a, Act.effect, bootHandle, ho.initializeFn, hf, callOf]
      rw [Act.returned, he]
      refine ⟨rfl, iff_of_true ⟨lib, ?_⟩ ⟨rfl, fun hne => absurd hf hne⟩⟩
      exact (running_initializeFn hso hf).mpr rfl
    · by_cases hstart : startRet = 0
      · subst hstart
        have he : a.effect h = ({ h with state := .alive }, [.initializeFn lib, .startFn lib]) := by
          simp [a, Act.effect, bootHandle, ho.initializeFn, hf, callOf]
        rw [Act.returned, he]
        refine ⟨rfl, iff_of_true ⟨lib, ?_⟩ ⟨rfl, fun _ => rfl⟩⟩
        exact (running_startFn hso hf).mpr ⟨rfl, initOk_initializeFn.mpr rfl⟩
      · have he : (a.effect h).1 = Handle.zero := by
          simp [a, Act.effect, bootHandle, hf, hstart]
        rw [he]
        refine ⟨rfl, iff_of_false (hzero _) fun hfine => hstart (hfine.2 (by simp [hf]))⟩
  · have he : (a.effect h).1 = Handle.zero := by
      simp [a, Act.effect, bootHandle, hinit]
    rw [he]
    exact ⟨rfl, iff_of_false (hzero _) fun hfine => hinit hfine.1⟩

/-- **One turn.** -/
theorem boot_step {s₀ : State} (hl : Loaded s₀) {n : Nat} {w w' : Watched} {r : Int × Int}
    (hb : Booting s₀ n w) (h : watched.step (.boot n r.1 r.2, 0) w = some w') :
    Booting s₀ (n + 1) w' ∧ ∃ k, s₀.slot n = some k ∧
      (SoundBelow (n + 1) w' ↔ SoundBelow n w ∧ Fine r k) := by
  have htable := table_watched w _ w' hb.table trivial h
  rcases watched_effect h with ⟨rfl, hmiss⟩ | ⟨i, k, hk, ht, hslots, hcount, hevents⟩
  · -- The slot is there, or the turn faults.
    obtain ⟨s, hs, -⟩ := Option.map_eq_some_iff.mp h
    obtain ⟨k, hslot, -⟩ := bootSlot_some hs
    exact absurd rfl (hmiss n (hb.table.slot_lt hslot))
  cases ht
  have hk₀ : s₀.slot n = some k := by rw [← hb.rest n (Nat.le_refl n), hk]
  obtain ⟨-, lib, ho⟩ := hl.plugin n k hk₀
  obtain ⟨halive, hfine⟩ := boot_running n r.1 r.2 ho w.events
  refine ⟨⟨htable, hcount.trans hb.count, fun i hi => ?_⟩, k, hk₀, ?_, ?_⟩
  · rw [hslots, if_neg (by omega)]
    exact hb.rest i (by omega)
  · intro hs
    refine ⟨fun i hi m hm hst => ?_, ?_⟩
    · refine (running_other hb.table hk ho hm (by omega) (.boot n r.1 r.2) 0).mp ?_
      rw [← hevents]
      exact hs i (by omega) m (by rw [hslots, if_neg (by omega)]; exact hm) hst
    · refine hfine.mp ?_
      rw [← hevents]
      exact hs n (by omega) _ (by rw [hslots, if_pos rfl]) halive
  · rintro ⟨hs, hr⟩ i hi m hm hst
    rw [hevents]
    rw [hslots] at hm
    split at hm
    · cases hm
      exact hfine.mpr hr
    · rename_i hne
      exact (running_other hb.table hk ho hm hne (.boot n r.1 r.2) 0).mpr
        (hs i (by omega) m hm hst)

/-- **The loop.** -/
theorem boots_sound {s₀ : State} (hl : Loaded s₀) {rets : List (Int × Int)} {n : Nat}
    {w w' : Watched} (hb : Booting s₀ n w) (h : watched.run (boots n rets) w = some w') :
    Booting s₀ (n + rets.length) w' ∧ (SoundBelow (n + rets.length) w' ↔
      SoundBelow n w ∧ ∀ i r k, rets[i]? = some r → s₀.slot (n + i) = some k → Fine r k) := by
  induction rets generalizing n w with
  | nil =>
    cases h
    rw [List.length_nil, Nat.add_zero]
    refine ⟨hb, fun hs => ⟨hs, fun i r k hi => ?_⟩, fun hs => hs.1⟩
    simp at hi
  | cons r rets ih =>
    obtain ⟨t, ht, h⟩ := Machine.run_cons_some.mp h
    obtain ⟨hb', k, hk, hstep⟩ := boot_step hl hb ht
    obtain ⟨hb'', hrest⟩ := ih hb' h
    have hlen : n + (r :: rets).length = n + 1 + rets.length := by
      rw [List.length_cons]
      omega
    rw [hlen]
    refine ⟨hb'', hrest.trans ?_⟩
    rw [hstep]
    constructor
    · rintro ⟨⟨hs, hr⟩, hall⟩
      refine ⟨hs, fun i r' k' hi hk' => ?_⟩
      cases i with
      | zero =>
        cases hi
        cases hk.symm.trans hk'
        exact hr
      | succ i => exact hall i r' k' hi (by rw [← hk']; congr 1; omega)
    · rintro ⟨hs, hall⟩
      refine ⟨⟨hs, hall 0 r k rfl hk⟩, fun i r' k' hi hk' => ?_⟩
      exact hall (i + 1) r' k' hi (by rw [← hk']; congr 1; omega)

/-- **What alive says.** For every run of `plugin_init` and every sequence of operations after it:
in all states from the end of `plugin_init` on, a slot in the state alive holds a plugin that runs,
if and only if no initialize and no start function failed in `plugin_init` and every operation is
sound. -/
theorem alive_sound_iff {hk : HeapKit.State} {es : List Entry} {s₀ : State}
    {rets : List (Int × Int)} {ops : List (Act × Int)} {w₁ w₂ : Watched}
    (hload : loading.run es (State.init hk) = some s₀) (hlen : rets.length = s₀.pluginsCount)
    (hboot : watched.run (boots 0 rets) ⟨s₀, []⟩ = some w₁)
    (hops : ∀ l ∈ ops, ∀ i r₁ r₂, l.1 ≠ .boot i r₁ r₂) (hrun : watched.run ops w₁ = some w₂) :
    (∀ bs t, bs <+: ops → watched.run bs w₁ = some t → AliveSound t) ↔
      (∀ i r h, rets[i]? = some r → s₀.slot i = some h → Fine r h) ∧
        watched.Meets Sound ops w₁ := by
  have hl := loaded_of_run hload
  obtain ⟨hb, hiff⟩ := boots_sound hl (w := ⟨s₀, []⟩) ⟨hl.toTable, rfl, fun _ _ => rfl⟩ hboot
  rw [Nat.zero_add, hlen] at hb hiff
  have hafter : AliveSound w₁ ↔ ∀ i r h, rets[i]? = some r → s₀.slot i = some h → Fine r h := by
    have hbelow : AliveSound w₁ ↔ SoundBelow s₀.pluginsCount w₁ :=
      ⟨fun hs i _ => hs i, fun hs i h hi => hs i (hb.count ▸ hb.table.slot_lt hi) h hi⟩
    rw [hbelow, hiff]
    simp only [Nat.zero_add]
    exact and_iff_right fun i hi => absurd hi (Nat.not_lt_zero i)
  rw [← hafter]
  by_cases hs : AliveSound w₁
  · rw [and_iff_right hs]
    exact Machine.prefixes_iff_meets (H := fun _ l => ∀ i r₁ r₂, l.1 ≠ .boot i r₁ r₂)
      (table_watched.mono fun _ _ _ => trivial)
      (fun w l w' hw hl hs hstep => alive_step hw hs hl hstep) hb.table
      (Machine.Meets.of_mem (fun _ => hops) w₁) hs hrun
  · exact iff_of_false (fun h => hs (h [] w₁ List.nil_prefix rfl)) fun h => hs h.1

/-- A plugin that is initialized, started and stopped. -/
theorem alive_sound_stopped :
    ∃ s₀ w₁ w₂, loading.run [pluginDir ['a'] true] (State.init noTypes) = some s₀ ∧
      s₀.pluginsCount = 1 ∧ watched.run (boots 0 [(0, 0)]) ⟨s₀, []⟩ = some w₁ ∧
      watched.run [(.stop 1, 0)] w₁ = some w₂ ∧
      ∀ bs t, bs <+: [(.stop 1, 0)] → watched.run bs w₁ = some t → AliveSound t := by
  have hall : ((loading.run [pluginDir ['a'] true] (State.init noTypes)).any fun s₀ =>
      decide (s₀.pluginsCount = 1) && (watched.run (boots 0 [(0, 0)]) ⟨s₀, []⟩).any fun w₁ =>
        (watched.run [(.stop 1, 0)] w₁).isSome) = true := by
    decide +kernel
  obtain ⟨s₀, hload, hall⟩ := Option.any_eq_true _ _ |>.mp hall
  obtain ⟨hcount, hall⟩ := Bool.and_eq_true_iff.mp hall
  obtain ⟨w₁, hboot, hall⟩ := Option.any_eq_true _ _ |>.mp hall
  obtain ⟨w₂, hstop⟩ := Option.isSome_iff_exists.mp hall
  refine ⟨s₀, w₁, w₂, hload, of_decide_eq_true hcount, hboot, hstop, ?_⟩
  have hlen : [((0 : Int), (0 : Int))].length = s₀.pluginsCount := (of_decide_eq_true hcount).symm
  refine (alive_sound_iff hload hlen hboot (fun l hl i r₁ r₂ he => ?_)
    hstop).mpr ⟨fun i r h hi _ => ?_, fun _ _ _ _ _ _ => trivial, fun _ _ => trivial⟩
  · rw [List.mem_singleton.mp hl] at he
    cases he
  · obtain ⟨-, rfl⟩ := List.getElem?_eq_some_iff.mp hi
    have hr : [((0 : Int), (0 : Int))][i] = (0, 0) :=
      List.mem_singleton.mp (List.getElem_mem _)
    rw [hr]
    exact ⟨rfl, fun _ => rfl⟩

/-- **Alive without a plugin.** The initialize function fails: `FREE_PLUGIN_HANDLE` closes the
library and zeroes the handle, so the state reads alive. -/
theorem freed_slot_alive :
    ∃ s₀ w₁, loading.run [pluginDir ['a'] true] (State.init noTypes) = some s₀ ∧
      watched.run (boots 0 [(1, 0)]) ⟨s₀, []⟩ = some w₁ ∧ w₁.st.pluginsCount = 1 ∧
      (w₁.st.slot 0).map (fun h => (h.state, h.so)) = some (.alive, none) ∧ ¬ AliveSound w₁ := by
  have hall : ((loading.run [pluginDir ['a'] true] (State.init noTypes)).any fun s₀ =>
      (watched.run (boots 0 [(1, 0)]) ⟨s₀, []⟩).any fun w₁ =>
        decide (w₁.st.pluginsCount = 1) &&
          decide ((w₁.st.slot 0).map (fun h => (h.state, h.so)) = some (.alive, none))) = true := by
    decide +kernel
  obtain ⟨s₀, hload, hall⟩ := Option.any_eq_true _ _ |>.mp hall
  obtain ⟨w₁, hboot, hall⟩ := Option.any_eq_true _ _ |>.mp hall
  obtain ⟨hcount, hslot⟩ := Bool.and_eq_true_iff.mp hall
  have hfreed := of_decide_eq_true hslot
  refine ⟨s₀, w₁, hload, hboot, of_decide_eq_true hcount, hfreed, fun hs => ?_⟩
  obtain ⟨h, hh, he⟩ := Option.map_eq_some_iff.mp hfreed
  obtain ⟨hst, hso⟩ := Prod.mk.inj he
  obtain ⟨lib, hr⟩ := hs 0 h hh hst
  cases hso.symm.trans hr.so

end Plugin
end CoreCDTL
