import CoreCDTL.EventBus.Delivery
import CoreCDTL.Plugin.Lifecycle
import CoreCDTL.Runtime.Pending

/-!
# Callbacks of plugins that have ended

The plugin manager, the scheduler and the event bus side by side. A plugin ends when
`FREE_PLUGIN_HANDLE` releases it or `plugin_shutdown` kills it; neither withdraws the timers and
subscriptions that it registered.

* `System`, `core`: the three components, and the ids of the plugins that have ended. A step is one of
  the manager, of the scheduler or of the bus, which is as `bus_init` leaves it.
* `Withdrawn`: a plugin ends with no callback of it on its way, no timer is made for an ended plugin,
  and no publish finds a subscription of one.
* `no_dead_callback`: in a run whose steps meet this no callback of an ended plugin is invoked.
-/

set_option linter.unusedSectionVars false

namespace CoreCDTL

/-! ## Plugins that end -/

namespace Plugin

/-- The slot of a step. -/
def Act.slotOf (s : State) : Act → Option Nat
  | .boot i _ _ => some i
  | .shutdown id | .initializeP id _ | .start id _ | .stop id | .reboot id _ => getPluginById s id

/-- The library of the handle is closed, or the handle moves to killed. -/
def Ends (h h' : Handle) : Prop :=
  (h.so ≠ none ∧ h'.so = none) ∨ (h.state ≠ .killed ∧ h'.state = .killed)

instance (h h' : Handle) : Decidable (Ends h h') := inferInstanceAs (Decidable (_ ∨ _))

/-- The id of the plugin that the step ends. -/
def Act.ends (a : Act) (s : State) : Option Nat :=
  (a.slotOf s).bind fun i => (s.slot i).bind fun h =>
    if Ends h (a.effect h).1 then some h.info.id else none

end Plugin

/-! ## The system -/

namespace Runtime

open EventBus (Aims finds bus)

/-- The states of the plugin manager, the scheduler and the event bus. `dead` is history: the ids of
the plugins that have ended. -/
structure System (κ : Type) where
  plugins : Plugin.State
  sched : Scheduler.State
  bus : EventBus.State κ
  dead : List Nat

inductive Label (κ : Type) where
  | plugin (a : Plugin.Act)
  | sched (a : Scheduler.Label)
  | bus (l : EventBus.Label κ)

section

variable {κ : Type} [DecidableEq κ]

/-- The core after the loading loop of `plugin_init`. -/
def start (κ : Type) (plugins : Plugin.State) : System κ :=
  ⟨plugins, Scheduler.init, EventBus.init κ [], []⟩

/-- A step of one of the components. -/
def step : Label κ → System κ → Option (System κ)
  | .plugin a, s => (a.step s.plugins).map fun p =>
    { s with plugins := p, dead := s.dead ++ (a.ends s.plugins).toList }
  | .sched a, s => (Scheduler.step a s.sched).map fun t => { s with sched := t }
  | .bus l, s => ((bus κ).step l s.bus).map fun b => { s with bus := b }

def core (κ : Type) [DecidableEq κ] : Machine (System κ) (Label κ) := ⟨step⟩

/-- The plugin whose callback the step invokes. -/
def invokes (s : System κ) : Label κ → Option Nat
  | .sched .call =>
    match s.sched.pc with
    | .popped t => some t.pluginId
    | _ => none
  | .bus (.work i _) =>
    match s.bus.worker i with
    | .dispatch k => k.owner
    | _ => none
  | _ => none

/-- No callback of a plugin that has ended is invoked. -/
def Safe (s : System κ) (l : Label κ) : Prop := ∀ p ∈ invokes s l, p ∉ s.dead

/-- A plugin ends with no callback of it on its way; no timer is made for an ended plugin, and no
publish finds a subscription of one. -/
def Withdrawn (s : System κ) : Label κ → Prop
  | .plugin a => ∀ p ∈ a.ends s.plugins, ¬ s.sched.store.Pending p ∧ ¬ Aims s.bus p
  | .sched a => ∀ p ∈ a.creates, p ∉ s.dead
  | .bus l => ∀ p ∈ finds s.bus l, p ∉ s.dead

/-- No callback of an ended plugin is on its way. -/
structure Clean (s : System κ) : Prop where
  sched : Scheduler.Inv s.sched
  delivery : EventBus.Delivery s.bus
  timers : ∀ p ∈ s.dead, ¬ s.sched.store.Pending p
  tasks : ∀ p ∈ s.dead, ¬ Aims s.bus p

theorem clean_start (plugins : Plugin.State) : Clean (start κ plugins) where
  sched := (Scheduler.Reach.inv ⟨_, [], rfl, rfl⟩)
  delivery := EventBus.delivery_init []
  timers := fun _ h => nomatch h
  tasks := fun _ h => nomatch h

theorem clean_keeps : (core κ).Keeps Withdrawn Clean := by
  intro s l s' hs hw h
  cases l with
  | plugin a =>
    obtain ⟨p, -, rfl⟩ := Option.map_eq_some_iff.mp h
    refine ⟨hs.sched, hs.delivery, fun q hq => ?_, fun q hq => ?_⟩
    · rcases List.mem_append.mp hq with hq | hq
      · exact hs.timers q hq
      · exact (hw q (Option.mem_toList.mp hq)).1
    · rcases List.mem_append.mp hq with hq | hq
      · exact hs.tasks q hq
      · exact (hw q (Option.mem_toList.mp hq)).2
  | sched a =>
    obtain ⟨t, ht, rfl⟩ := Option.map_eq_some_iff.mp h
    refine ⟨Scheduler.inv_keeps s.sched a t hs.sched trivial ht, hs.delivery, fun q hq hp => ?_,
      hs.tasks⟩
    rcases Scheduler.pending_step hs.sched.stops ht hp with hp | hc
    · exact hs.timers q hq hp
    · exact hw q hc hq
  | bus l =>
    obtain ⟨b, hb, rfl⟩ := Option.map_eq_some_iff.mp h
    refine ⟨hs.sched, EventBus.delivery_keeps s.bus l b hs.delivery trivial hb, hs.timers,
      fun q hq hp => ?_⟩
    rcases EventBus.aims_step hs.delivery.flow.ring hb hp with hp | hf
    · exact hs.tasks q hq hp
    · exact hw q hf hq

/-- A callback that is invoked was on its way. -/
theorem Clean.safe {s : System κ} (hs : Clean s) (l : Label κ) : Safe s l := by
  intro p hp hd
  unfold invokes at hp
  split at hp
  · split at hp
    · rename_i t hpc
      cases Option.mem_some_iff.mp hp
      refine hs.timers _ hd (.inl ⟨t, ?_, rfl⟩)
      simp [Scheduler.State.store, Scheduler.Pc.uncalled, hpc]
    · cases hp
  · split at hp
    · rename_i i _ _ k hw
      refine hs.tasks _ hd (.inr (.inl ⟨i, k, ?_, hp⟩))
      rw [hw]
      exact List.mem_singleton_self k
    · cases hp
  · cases hp

/-- **No callback into a dead plugin**, in a run that meets the condition. -/
theorem no_dead_callback (plugins : Plugin.State) {ls : List (Label κ)}
    (hm : (core κ).Meets Withdrawn ls (start κ plugins)) :
    (core κ).Meets Safe ls (start κ plugins) :=
  clean_keeps.meets (fun _ l hs _ => hs.safe l) (clean_start plugins) hm

end

/-! ## Two runs -/

instance (s : System Unit) : (l : Label Unit) → Decidable (Withdrawn s l)
  | .plugin _ => inferInstanceAs (Decidable (∀ _ ∈ _, _))
  | .sched _ => inferInstanceAs (Decidable (∀ _ ∈ _, _))
  | .bus _ => inferInstanceAs (Decidable (∀ _ ∈ _, _))

/-- A timer of plugin 1, due 10 ms after the start. -/
def timer : Scheduler.CreateArgs := ⟨1, 10, 7, 0, true, 0⟩

/-- The scheduler starts and pops the timer. -/
def pops : List (Label Unit) :=
  [.sched (.init true), .sched .lock, .sched (.loop 10)]

/-- Plugin 1 starts; its timer fires, it is subscribed and called for a publish, and it is shut
down. -/
def quietEnd : List (Label Unit) :=
  [.plugin (.boot 0 0 0), .sched (.after timer), .sched (.insert 0), .sched (.ret 0)] ++ pops ++
    [.sched .call, .sched .cbReturn, .sched (.relock 10),
      .bus (.call (.client ()) (.subscribe ⟨1, .obj ['e'], some 1, 0⟩))] ++
    List.replicate 5 (.bus (.go (.client ()) .ok)) ++
    .bus (.call (.client ()) (.publish ⟨1, .obj ['e'], .obj [7], 1⟩)) ::
    List.replicate 7 (.bus (.go (.client ()) .ok)) ++
    List.replicate 4 (.bus (.work 0 .ok)) ++ [.bus (.ret 0), .bus (.work 0 .ok),
      .plugin (.shutdown 1)]

theorem no_dead_callback_quietEnd :
    ∃ s₀ s, Plugin.loading.run [Plugin.pluginDir ['a'] true] (Plugin.State.init Plugin.noTypes) =
        some s₀ ∧ (core Unit).run quietEnd (start Unit s₀) = some s ∧ s.dead = [1] ∧
      (core Unit).Meets Safe quietEnd (start Unit s₀) := by
  have hrun : (Plugin.loading.run [Plugin.pluginDir ['a'] true]
      (Plugin.State.init Plugin.noTypes)).any (fun s₀ =>
        decide ((core Unit).Meets Withdrawn quietEnd (start Unit s₀)) &&
        ((core Unit).run quietEnd (start Unit s₀)).any fun s => decide (s.dead = [1])) = true := by
    decide +kernel
  obtain ⟨s₀, hload, hrun⟩ := Option.any_eq_true _ _ |>.mp hrun
  obtain ⟨hm, hrun⟩ := Bool.and_eq_true_iff.mp hrun
  obtain ⟨s, hs, hd⟩ := Option.any_eq_true _ _ |>.mp hrun
  exact ⟨s₀, s, hload, hs, of_decide_eq_true hd, no_dead_callback s₀ (of_decide_eq_true hm)⟩

/-- Plugin 1 makes a timer in its initialize function, and its start function fails. -/
def failedStart : List (Label Unit) :=
  [.sched (.after timer), .sched (.insert 0), .sched (.ret 0), .plugin (.boot 0 0 1)] ++ pops

/-- **A callback into a dead plugin.** `FREE_PLUGIN_HANDLE` closes the library of the plugin and leaves
its timer, which the scheduler then fires. -/
theorem released_plugin_called :
    ∃ s₀ s, Plugin.loading.run [Plugin.pluginDir ['a'] true] (Plugin.State.init Plugin.noTypes) =
        some s₀ ∧ (core Unit).run failedStart (start Unit s₀) = some s ∧
      (core Unit).Enabled (.sched .call) s ∧ ¬ Safe s (.sched .call) := by
  have hrun : (Plugin.loading.run [Plugin.pluginDir ['a'] true]
      (Plugin.State.init Plugin.noTypes)).any (fun s₀ =>
        ((core Unit).run failedStart (start Unit s₀)).any fun s =>
          ((core Unit).step (.sched .call) s).isSome &&
            decide (invokes s (.sched .call) = some 1 ∧ 1 ∈ s.dead)) = true := by
    decide +kernel
  obtain ⟨s₀, hload, hrun⟩ := Option.any_eq_true _ _ |>.mp hrun
  obtain ⟨s, hs, hrun⟩ := Option.any_eq_true _ _ |>.mp hrun
  obtain ⟨he, hd⟩ := Bool.and_eq_true_iff.mp hrun
  obtain ⟨hi, hd⟩ := of_decide_eq_true hd
  exact ⟨s₀, s, hload, hs, Option.isSome_iff_exists.mp he, fun h => h 1 hi hd⟩

end Runtime

end CoreCDTL
