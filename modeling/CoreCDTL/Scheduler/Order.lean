import CoreCDTL.Scheduler.Ownership

/-!
# The scheduler: order and conservation

The timers are called in the order of `Timer.Before`, and none is lost.

* `step_popped`: only the thread's loop pops a timer. It is the first of the list, and due at the
  clock reading of that round.
* `step_fired`: only a popped timer is called.
* `order_and_conservation`: after every run the list is in order, every timer is at exactly one
  place and freed at most once, a popped timer is before all that stay, and a one-shot timer was
  called at most once.
-/

namespace CoreCDTL
namespace Scheduler

/-- A popped timer was the first of the list, and due at the clock reading of its round. -/
theorem step_popped {a : Label} {s s' : State} {t : Timer} (h : step a s = some s')
    (hp : s'.pc = .popped t) (hne : s.pc ≠ .popped t) :
    ∃ now, a = .loop now ∧ t.dueMs ≤ now ∧ s.timers = t :: s'.timers := by
  cases step_turn h with
  | @pop now u rest _ _ first due =>
    cases hp
    exact ⟨now, rfl, due, first⟩
  | @init ok => cases ok <;> cases hp
  | refused | after | every | insert | ret | cancel | missed | shutdown | cleanup | connect =>
    exact absurd hp hne
  | lock | exit | sleep | call | cbReturn | cbCrash | rearm | release => cases hp

theorem Pc.uncalled_eq {p : Pc} {t : Timer} (h : p.uncalled = [t]) : p = .popped t := by
  cases p <;> simp_all [Pc.uncalled]

/-- Only a popped timer is called. -/
theorem step_fired {a : Label} {s s' : State} (hi : Inv s) (h : step a s = some s') :
    s'.fired = s.fired ∨ ∃ t, s.pc = .popped t ∧ s'.fired = t.ref :: s.fired := by
  rcases step_moves hi.stops h with he | hm
  · left
    show s'.store.fired = s.store.fired
    rw [he]
  · have hf : s'.store.fired = s.store.fired ∨
        ∃ t, s.store.popped = [t] ∧ s'.store.fired = t.ref :: s.store.fired := by
      generalize s'.store = b' at hm
      cases hm with
      | fire t hp hc => exact .inr ⟨t, hp, rfl⟩
      | _ => exact .inl rfl
    rcases hf with hf | ⟨t, hp, hf⟩
    · exact .inl hf
    · exact .inr ⟨t, Pc.uncalled_eq hp, hf⟩

/-- How often the timer `r` is being created, in the list, in the thread's hand, or freed. -/
def State.places (s : State) (r : Nat) : Nat :=
  (s.creating.map fun c => c.timer.ref).count r + (s.timers.map fun t => t.ref).count r +
    (s.pc.hand.map fun t => t.ref).count r + s.freed.count r

theorem State.places_eq (s : State) (r : Nat) : s.places r = s.store.places r := by
  unfold State.places Store.places State.store
  simp only [Pc.hand_eq, List.map_append, List.count_append]
  omega

/-- **Order and conservation.** After every run: the list is in order of due time, equal ones in
order of insertion; every timer whose creation began is at exactly one place, so it is freed at
most once; a step that pops a timer takes one that is due at its clock reading and before all that
stay; only the popped timer is called; and a one-shot timer was called at most once. -/
theorem order_and_conservation {s : State} (hs : Reach s) :
    s.timers.Pairwise Timer.Before ∧
      (∀ r, r < s.born.length → s.places r = 1) ∧
      (∀ r, s.freed.count r ≤ 1) ∧
      (∀ a s' t, step a s = some s' → s'.pc = .popped t → s.pc ≠ .popped t →
        ∃ now, a = .loop now ∧ t.dueMs ≤ now ∧ s.timers = t :: s'.timers ∧
          ∀ u ∈ s'.timers, t.Before u) ∧
      (∀ a s', step a s = some s' →
        s'.fired = s.fired ∨ ∃ t, s.pc = .popped t ∧ s'.fired = t.ref :: s.fired) ∧
      ∀ t ∈ s.born, t.repeating = false → s.fired.count t.ref ≤ 1 := by
  have hi := hs.inv
  refine ⟨hi.good.sorted, fun r hr => ?_, fun r => ?_, fun a s' t h hp hne => ?_,
    fun a s' h => step_fired hi h, hi.good.once⟩
  · rw [State.places_eq, hi.good.owned]
    exact if_pos hr
  · have h := hi.good.place_unique r
    unfold Store.places at h
    have hf : s.store.freed = s.freed := rfl
    rw [hf] at h
    omega
  · obtain ⟨now, ha, hd, hl⟩ := step_popped h hp hne
    have hsorted : s.timers.Pairwise Timer.Before := hi.good.sorted
    rw [hl] at hsorted
    exact ⟨now, ha, hd, hl, (List.pairwise_cons.mp hsorted).1⟩

/-- Two timers, one of them popped. -/
def sampleRun : List Label :=
  [.init true, .after ⟨1, 30, 1, 0, true, 0⟩, .every ⟨1, 10, 1, 0, true, 0⟩, .insert 0, .insert 0,
    .ret 0, .ret 0, .lock, .loop 10]

/-- After `sampleRun` one timer is in the list and the other one in the thread's hand. -/
theorem order_and_conservation_sampleRun :
    ∃ s, machine.run sampleRun init = some s ∧ s.timers.Pairwise Timer.Before ∧
      (∀ r, r < 2 → s.places r = 1) ∧ ∀ r, s.freed.count r ≤ 1 :=
  have h := @order_and_conservation _ ⟨init, sampleRun, rfl, rfl⟩
  ⟨_, rfl, h.1, h.2.1, h.2.2.1⟩

end Scheduler
end CoreCDTL
