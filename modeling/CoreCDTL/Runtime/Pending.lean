import CoreCDTL.EventBus.Flow
import CoreCDTL.Scheduler.Ownership
import Mathlib.Data.Fintype.Sum

/-!
# Callbacks on their way

A plugin registers timers and subscriptions through stubs that pass its id, so the id of a timer or a
subscription is that of the plugin that registered it.

* `Scheduler.Store.Pending`: a timer of a plugin is on its way to its callback. A step makes one
  pending only where it makes the timer (`pending_step`).
* `EventBus.Aims`: a task of a plugin is on its way to its callback. A step brings one on its way only
  where a publish finds a subscription of the plugin (`aims_step`).
-/

set_option linter.unusedSectionVars false

namespace CoreCDTL

/-! ## Timers on their way -/

namespace Scheduler

/-- A timer of the plugin will be called: it is in the list, on the way into it, popped, or repeating
and in its callback. -/
def Store.Pending (b : Store) (p : Nat) : Prop :=
  (∃ t ∈ b.timers ++ b.creating.map (·.timer) ++ b.popped, t.pluginId = p) ∨
    ∃ t ∈ b.called, t.repeating = true ∧ t.pluginId = p

instance (b : Store) (p : Nat) : Decidable (b.Pending p) :=
  inferInstanceAs (Decidable ((∃ t ∈ _, _) ∨ ∃ t ∈ _, _))

/-- The plugin for which the step makes a timer. -/
def Label.creates : Label → Option Nat
  | .after c => if c.cb = 0 ∨ c.malloc = false then none else some c.pluginId
  | .every c => if c.cb = 0 ∨ c.ms = 0 ∨ c.malloc = false then none else some c.pluginId
  | _ => none

theorem Store.pending_iff {b : Store} {p : Nat} : b.Pending p ↔
    (∃ t ∈ b.timers, t.pluginId = p) ∨ (∃ c ∈ b.creating, c.timer.pluginId = p) ∨
      (∃ t ∈ b.popped, t.pluginId = p) ∨ ∃ t ∈ b.called, t.repeating = true ∧ t.pluginId = p := by
  unfold Store.Pending
  simp only [List.mem_append, List.mem_map, or_and_right, exists_or, or_assoc]
  simp

/-- A move of the store makes no timer of a plugin pending, but for a new one. -/
theorem Store.Move.pending {P : Prop} {b b' : Store} (h : Store.Move P b b') {p : Nat}
    (hp : b'.Pending p) :
    b.Pending p ∨ ∃ t : TimerInfo, b'.born = b.born ++ [t] ∧ t.pluginId = p := by
  rw [Store.pending_iff] at hp ⊢
  have linked : ∀ t : Timer, (∃ u ∈ insertTimer t b.timers, u.pluginId = p) →
      (∃ u ∈ b.timers, u.pluginId = p) ∨ t.pluginId = p := by
    rintro t ⟨u, hu, hid⟩
    rcases mem_insertTimer.mp hu with rfl | hu
    · exact .inr hid
    · exact .inl ⟨u, hu, hid⟩
  cases h with
  | draw t ms =>
    rcases hp with hp | ⟨c, hc, hid⟩ | hp
    · exact .inl (.inl hp)
    · rcases List.mem_append.mp hc with hc | hc
      · exact .inl (.inr (.inl ⟨c, hc, hid⟩))
      · rw [List.mem_singleton.mp hc] at hid
        exact .inr ⟨t.toTimerInfo, rfl, hid⟩
    · exact .inl (.inr (.inr hp))
  | link i c hc =>
    rcases hp with hp | ⟨d, hd, hid⟩ | hp
    · rcases linked _ hp with hp | hp
      · exact .inl (.inl hp)
      · exact .inl (.inr (.inl ⟨c, List.mem_of_getElem? hc, hp⟩))
    · exact .inl (.inr (.inl ⟨d, List.mem_of_mem_eraseIdx hd, hid⟩))
    · exact .inl (.inr (.inr hp))
  | ret i c hc => exact .inl hp
  | pop t rest ht hpop hcalled =>
    rcases hp with ⟨u, hu, hid⟩ | hp | ⟨u, hu, hid⟩ | ⟨u, hu, -⟩
    · exact .inl (.inl ⟨u, ht ▸ List.mem_cons_of_mem t hu, hid⟩)
    · exact .inl (.inr (.inl hp))
    · rw [List.mem_singleton.mp hu] at hid
      exact .inl (.inl ⟨t, ht ▸ List.mem_cons_self, hid⟩)
    · cases hu
  | fire t hpop hcalled =>
    rcases hp with hp | hp | ⟨u, hu, -⟩ | ⟨u, hu, -, hid⟩
    · exact .inl (.inl hp)
    · exact .inl (.inr (.inl hp))
    · cases hu
    · rw [List.mem_singleton.mp hu] at hid
      exact .inl (.inr (.inr (.inl ⟨t, hpop ▸ List.mem_singleton_self t, hid⟩)))
  | rearm t due now hpop hcalled hr =>
    rcases hp with hp | hp | ⟨u, hu, -⟩ | ⟨u, hu, -⟩
    · rcases linked _ hp with hp | hp
      · exact .inl (.inl hp)
      · exact .inl (.inr (.inr (.inr ⟨t, hcalled ▸ List.mem_singleton_self t, hr, hp⟩)))
    · exact .inl (.inr (.inl hp))
    · cases hu
    · cases hu
  | release t hpop hcalled hr =>
    rcases hp with hp | hp | ⟨u, hu, -⟩ | ⟨u, hu, -⟩
    · exact .inl (.inl hp)
    · exact .inl (.inr (.inl hp))
    · cases hu
    · cases hu
  | cancel pid id t rest ht =>
    rcases hp with ⟨u, hu, hid⟩ | hp
    · obtain ⟨xs, ys, hl, rfl, -⟩ := removeTimer_some ht
      refine .inl (.inl ⟨u, hl ▸ ?_, hid⟩)
      rcases List.mem_append.mp hu with hu | hu
      · exact List.mem_append_left _ hu
      · exact List.mem_append_right _ (List.mem_cons_of_mem t hu)
    · exact .inl (.inr hp)
  | clear hs =>
    rcases hp with ⟨u, hu, -⟩ | hp
    · cases hu
    · exact .inl (.inr hp)

/-- Timers are born by the two functions that make them. -/
theorem step_born {a : Label} {s s' : State} (h : step a s = some s') :
    s'.born = s.born ∨ ∃ t : TimerInfo, s'.born = s.born ++ [t] ∧ a.creates = some t.pluginId := by
  cases step_turn h with
  | after cb node => exact .inr ⟨_, rfl, if_neg (not_or.mpr ⟨cb, node⟩)⟩
  | every cb ms node => exact .inr ⟨_, rfl, if_neg (not_or.mpr ⟨cb, not_or.mpr ⟨ms, node⟩⟩)⟩
  | _ => exact .inl rfl

theorem pending_step {a : Label} {s s' : State} (hst : s.Stops) (h : step a s = some s') {p : Nat}
    (hp : s'.store.Pending p) : s.store.Pending p ∨ a.creates = some p := by
  rcases step_moves hst h with he | hm
  · exact .inl (he ▸ hp)
  rcases hm.pending hp with hp | ⟨t, ht, rfl⟩
  · exact .inl hp
  · rcases step_born h with hb | ⟨u, hb, hc⟩
    · have hlen : s.born = s.born ++ [t] := hb.symm.trans ht
      simp at hlen
    · have heq : s.born ++ [t] = s.born ++ [u] := ht.symm.trans hb
      cases (List.append_cancel_left heq)
      exact .inr hc

end Scheduler

/-! ## Tasks on their way -/

namespace EventBus

/-- The plugin that subscribed. -/
def Task.owner (k : Task) : Option Nat := k.subPtr.map (·.pluginId)

/-- The plugin whose subscription a publish has found. -/
def CallPc.aim : CallPc → Option Nat
  | publishCopy _ it => some it.pluginId
  | enqueueLock _ k | enqueueTest _ k | enqueueWait _ k => k.owner
  | _ => none

variable {κ : Type} [DecidableEq κ]

/-- A callback of the plugin will be called: for a task in the ring, in the hand of a worker, or on its
way into the ring. -/
def Aims (s : State κ) (p : Nat) : Prop :=
  (∃ k ∈ s.queue.contents MAX_TASKS, k.owner = some p) ∨
    (∃ i, ∃ k ∈ (s.worker i).toCall, k.owner = some p) ∨
    ∃ t, (s.call t).bind CallPc.aim = some p

/-- The plugin whose subscription the step finds. -/
def finds (s : State κ) : Label κ → Option Nat
  | .go t _ =>
    match s.call t with
    | some (.publishSearch a) =>
      match search a.pluginId a.event s.subs with
      | .found it => some it.pluginId
      | _ => none
    | _ => none
  | _ => none

instance [Fintype κ] : Fintype (Caller κ) :=
  Fintype.ofEquiv (κ ⊕ Worker)
    { toFun := Sum.elim .client .worker
      invFun := fun
        | .client k => .inl k
        | .worker i => .inr i
      left_inv := by rintro (k | i) <;> rfl
      right_inv := by rintro (k | i) <;> rfl }

instance [Fintype κ] (s : State κ) (p : Nat) : Decidable (Aims s p) :=
  inferInstanceAs (Decidable (_ ∨ _ ∨ _))

section Step

variable {s s' : State κ} {p : Nat}

/-- The ring holds no new task, but for one that a caller had. -/
theorem contents_step {l : Label κ} (hr : s.queue.Inv MAX_TASKS) (h : (bus κ).step l s = some s')
    {k : Task} (hk : k ∈ s'.queue.contents MAX_TASKS) :
    k ∈ s.queue.contents MAX_TASKS ∨ ∃ t a, s.call t = some (.enqueueTest a k) := by
  cases step_ring h with
  | keep queue => exact .inl (queue ▸ hk)
  | push label at_ room up queue =>
    rw [queue, Ring.contents_push hr (Nat.lt_of_le_of_ne hr.count room)] at hk
    rcases List.mem_append.mp hk with hk | hk
    · exact .inl hk
    · rw [List.mem_singleton.mp hk]
      exact .inr ⟨_, _, at_⟩
  | pop label nonempty queue =>
    rw [queue] at hk
    left
    rw [Ring.contents_pop hr.head (Nat.pos_of_ne_zero nonempty)]
    exact List.mem_cons_of_mem _ hk

/-- A worker has no new task before its call, but for one that it took from the ring. -/
theorem toCall_step {l : Label κ} (hr : s.queue.Inv MAX_TASKS) (h : (bus κ).step l s = some s')
    {i : Worker} {k : Task} (hk : k ∈ (s'.worker i).toCall) :
    k ∈ (s.worker i).toCall ∨ k ∈ s.queue.contents MAX_TASKS := by
  cases step_worker h i with
  | same worker => exact .inl (worker ▸ hk)
  | idle empty => rw [empty] at hk; cases hk
  | takes nonempty worker =>
    rw [worker] at hk
    right
    rw [Ring.contents_pop hr.head (Nat.pos_of_ne_zero nonempty), List.mem_singleton.mp hk]
    exact List.mem_cons_self
  | unlocks j before worker =>
    rw [worker] at hk
    rw [before]
    exact .inl hk
  | leaves _ _ worker => rw [worker] at hk; cases hk
  | exits _ worker => rw [worker] at hk; cases hk

/-- The caller `t` moves to `next`. -/
theorem aim_update {t : Caller κ} {next : Option CallPc} {Q : Prop}
    (call : s'.call = Function.update s.call t next)
    (aim : next.bind CallPc.aim = some p → (s.call t).bind CallPc.aim = some p ∨ Q)
    {u : Caller κ} (hu : (s'.call u).bind CallPc.aim = some p) :
    (s.call u).bind CallPc.aim = some p ∨ Q := by
  rw [call] at hu
  by_cases h : u = t
  · rw [h, Function.update_self] at hu
    rw [h]
    exact aim hu
  · rw [Function.update_of_ne h] at hu
    exact .inl hu

/-- A step of a call aims at no new plugin, but where the search finds a subscription of it. -/
theorem callStep_aim {t : Caller κ} {o : Outcome} {c : CallPc} (at_ : s.call t = some c)
    (h : callStep t o c s = some s') {u : Caller κ}
    (hu : (s'.call u).bind CallPc.aim = some p) :
    (s.call u).bind CallPc.aim = some p ∨ finds s (.go t o) = some p := by
  have out : ∀ next : Option CallPc, next.bind CallPc.aim = none →
      s'.call = Function.update s.call t next →
      (s.call u).bind CallPc.aim = some p ∨ finds s (.go t o) = some p :=
    fun next hn call => aim_update call (fun h => by rw [hn] at h; cases h) hu
  have same : ∀ n : CallPc, n.aim = c.aim → s'.call = Function.update s.call t (some n) →
      (s.call u).bind CallPc.aim = some p ∨ finds s (.go t o) = some p :=
    fun n hn call => aim_update call (fun h => .inl (by rw [at_]; exact hn.symm.trans h)) hu
  cases c with
  | publishSearch a =>
    simp only [callStep] at h
    cases hs : search a.pluginId a.event s.subs with
    | notFound => rw [hs] at h; cases h; exact out (some (.publishMiss a)) rfl rfl
    | fault => rw [hs] at h; cases h
    | found it =>
      rw [hs] at h
      cases h
      refine aim_update rfl (fun h => .inr ?_) hu
      simp only [finds, at_, hs]
      exact h
  | publishLock a =>
    obtain ⟨m, -, rfl⟩ := Option.map_eq_some_iff.mp h
    exact out (some (.publishSearch a)) rfl rfl
  | publishCopy a it =>
    simp only [callStep] at h
    split at h
    · cases h
      exact out (some (.publishUnlock 5)) rfl rfl
    · obtain ⟨bytes, -, rfl⟩ := Option.map_eq_some_iff.mp h
      exact same (.enqueueLock a ⟨some ⟨s.buffers, bytes⟩, a.len, some it⟩) rfl rfl
  | publishMiss a => cases h; exact out (some (.publishMsg a)) rfl rfl
  | publishMsg a =>
    simp only [callStep] at h
    split at h
    · obtain ⟨e, -, rfl⟩ := Option.map_eq_some_iff.mp h
      exact out none rfl rfl
    · cases h
      exact out none rfl rfl
  | publishUnlock r => cases h; exact out none rfl rfl
  | enqueueLock a k =>
    obtain ⟨m, -, rfl⟩ := Option.map_eq_some_iff.mp h
    exact same (.enqueueTest a k) rfl rfl
  | enqueueTest a k =>
    simp only [callStep] at h
    split at h
    · cases h
      exact same (.enqueueWait a k) rfl rfl
    · split at h
      · cases h
        exact out (some .enqueueUnlock) rfl rfl
      · obtain ⟨⟨i, rest⟩, -, rfl⟩ := Option.map_eq_some_iff.mp h
        cases i <;> exact out (some .enqueueUnlock) rfl rfl
  | enqueueWait => cases h
  | enqueueUnlock => cases h; exact out (some (.publishUnlock 0)) rfl rfl
  | subscribeAlloc a cb =>
    simp only [callStep] at h
    split at h
    · cases h
      exact out none rfl rfl
    · split at h
      · split at h
        · cases h
          exact out none rfl rfl
        · cases h
          exact out (some (.subscribeLock _)) rfl rfl
      · cases h
  | subscribeLock n =>
    obtain ⟨m, -, rfl⟩ := Option.map_eq_some_iff.mp h
    exact out (some (.subscribeInsert n)) rfl rfl
  | subscribeInsert n => cases h; exact out (some (.subscribeUnlock n)) rfl rfl
  | subscribeUnlock n => cases h; exact out (some (.subscribeMsg n)) rfl rfl
  | subscribeMsg n => cases h; exact out none rfl rfl

theorem first_aim (c : BusCall) : c.first.bind CallPc.aim = none := by
  cases hf : c.first with
  | none => rfl
  | some n => rcases BusCall.first_some hf with ⟨a, rfl⟩ | ⟨a, cb, rfl⟩ <;> rfl

theorem wakeCaller_aim (t : Option (Caller κ)) (u : Caller κ) :
    ((s.wakeCaller t).call u).bind CallPc.aim = (s.call u).bind CallPc.aim := by
  unfold State.wakeCaller
  split
  · rfl
  · rename_i v
    split
    · rename_i a k hc
      by_cases hu : u = v
      · have hv : (s.goto v (.enqueueLock a k)).call v = some (.enqueueLock a k) :=
          Function.update_self ..
        rw [hu, hc, hv]
        rfl
      · exact congrArg (Option.bind · CallPc.aim) (Function.update_of_ne hu ..)
    · rfl

/-- A step aims at no new plugin, but where a publish finds a subscription of it. -/
theorem aim_step {l : Label κ} (h : (bus κ).step l s = some s') {u : Caller κ}
    (hu : (s'.call u).bind CallPc.aim = some p) :
    (s.call u).bind CallPc.aim = some p ∨ finds s l = some p := by
  have same : s'.call = s.call →
      (s.call u).bind CallPc.aim = some p ∨ finds s l = some p := fun h => .inl (h ▸ hu)
  have crash : ∀ t, s' = s.recover t →
      (s.call u).bind CallPc.aim = some p ∨ finds s l = some p := by
    rintro t rfl
    cases t with
    | client k =>
      have hc : (s.recover (.client k)).call = Function.update s.call (.client k) none := rfl
      exact aim_update hc (fun h => by cases h) hu
    | worker i =>
      cases hw : s.worker i with
      | running task =>
        have hc : (s.recover (.worker i)).call = Function.update s.call (.worker i) none :=
          congrArg State.call (recover_worker hw)
        exact aim_update hc (fun h => by cases h) hu
      | _ => exact same (by simp only [State.recover, hw])
  cases step_moves h with
  | @call t c _ outside up hq =>
    exact aim_update hq.call (fun h => by rw [first_aim] at h; cases h) hu
  | @go t o c _ at_ move =>
    obtain ⟨c', hc', hs⟩ := Option.bind_eq_some_iff.mp h
    exact callStep_aim hc' hs hu
  | @work i o _ move =>
    generalize s.worker i = w at move
    cases move with
    | @pop t rest =>
      have hwake := @wakeCaller_aim κ _ { s with
        queue := s.queue.pop MAX_TASKS, taken := s.taken ++ [(i, s.queue.front)], notFull := rest } t u
      exact .inl (hwake.symm.trans hu)
    | _ => exact same rfl
  | ret | wakeWorker | shutdown => exact same rfl
  | @crashIn t => exact crash t rfl
  | @crashOut t => exact crash t rfl
  | @wakeCaller t =>
    rw [wakeCaller_aim] at hu
    exact .inl hu
  | main step => exact same (mainStep_frame step).call

/-- **What comes to be on its way.** -/
theorem aims_step {l : Label κ} (hr : s.queue.Inv MAX_TASKS) (h : (bus κ).step l s = some s')
    (hp : Aims s' p) : Aims s p ∨ finds s l = some p := by
  rcases hp with ⟨k, hk, ho⟩ | ⟨i, k, hk, ho⟩ | ⟨t, ht⟩
  · rcases contents_step hr h hk with hk | ⟨t, a, ht⟩
    · exact .inl (.inl ⟨k, hk, ho⟩)
    · exact .inl (.inr (.inr ⟨t, by rw [ht]; exact ho⟩))
  · rcases toCall_step hr h hk with hk | hk
    · exact .inl (.inr (.inl ⟨i, k, hk, ho⟩))
    · exact .inl (.inl ⟨k, hk, ho⟩)
  · rcases aim_step h ht with ht | ht
    · exact .inl (.inr (.inr ⟨t, ht⟩))
    · exact .inr ht

end Step

end EventBus

end CoreCDTL
