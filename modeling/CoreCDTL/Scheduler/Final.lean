import CoreCDTL.Scheduler.Cancel

/-!
# The scheduler: a cancellation is final and local

* `schedulerCancel_cases`: `scheduler_cancel` takes one timer with the id and the plugin out of the
  list, or leaves the list alone.
* `Live.id_unique`: below `2 ^ 31 - 1` creations no two timers have one id.
* `cancel_final_and_local`: the timer that leaves is the only one with its id, it was created for
  the plugin that cancels, it is never called again, and every other timer stays as it was.
-/

namespace CoreCDTL
namespace Scheduler

/-- The two outcomes of `scheduler_cancel`. -/
theorem schedulerCancel_cases (pid : Nat) (id : Int) (s : State) :
    (∃ t xs ys, s.timers = xs ++ t :: ys ∧ t.id = id ∧ t.pluginId = pid ∧
      removeTimer pid id s.timers = some (t, xs ++ ys) ∧
      schedulerCancel pid id s =
        (0, { s.free t with timers := xs ++ ys, cancelled := t.ref :: s.cancelled })) ∨
    (schedulerCancel pid id s).1 = -1 ∧ (schedulerCancel pid id s).2.timers = s.timers := by
  unfold schedulerCancel
  split
  · exact .inr ⟨rfl, rfl⟩
  · split
    · rename_i t rest found
      obtain ⟨xs, ys, hl, rfl, hid, hpid, -⟩ := removeTimer_some found
      exact .inl ⟨t, xs, ys, hl, hid, hpid, found, rfl⟩
    · obtain ⟨ms, sent⟩ := send_frame s (.cancel pid id)
      rw [sent]
      exact .inr ⟨rfl, rfl⟩

/-- Below `2 ^ 31 - 1` creations no two timers have one id. -/
theorem Live.id_unique {s : State} (hl : Live s) (hc : s.born.length < 2 ^ 31 - 1)
    {t u : TimerInfo} (ht : t ∈ s.born) (hu : s.born[u.ref]? = some u) (h : t.id = u.id) :
    t = u := by
  obtain ⟨i, hi⟩ := List.getElem?_of_mem ht
  have hti : t.ref = i := hl.inv.good.bornRef i t hi
  have h₁ := hl.id_eq (Nat.le_of_lt hc) (hti ▸ hi)
  have h₂ := hl.id_eq (Nat.le_of_lt hc) hu
  have href : t.ref = u.ref := by omega
  rw [← href, hti, hi] at hu
  exact Option.some.inj hu

/-- **Cancellation is final and local.** In every reachable state with fewer than `2 ^ 31 - 1`
timers created, `scheduler_cancel` returns 0 or -1. With 0, one timer has left the list: the only
timer with that id, created for that plugin; the others are there in their order and as they were,
among them every timer of another plugin; and no later step calls the timer that left. With -1 the
list is as it was. -/
theorem cancel_final_and_local {s : State} (hs : Reach s) (hc : s.born.length < 2 ^ 31 - 1)
    (pid : Nat) (id : Int) :
    ((schedulerCancel pid id s).1 = 0 ∧
        ∃ t xs ys, s.timers = xs ++ t :: ys ∧ (schedulerCancel pid id s).2.timers = xs ++ ys ∧
          t.id = id ∧ t.pluginId = pid ∧ s.born[t.ref]? = some t.toTimerInfo ∧
          (∀ u ∈ s.born, u.id = id → u = t.toTimerInfo) ∧
          (∀ u ∈ xs ++ ys, u.id ≠ id) ∧
          (∀ u ∈ s.timers, u.pluginId ≠ pid → u ∈ (schedulerCancel pid id s).2.timers) ∧
          ∀ as s', machine.run as (schedulerCancel pid id s).2 = some s' →
            s'.fired.count t.ref = s.fired.count t.ref) ∨
      ((schedulerCancel pid id s).1 = -1 ∧ (schedulerCancel pid id s).2.timers = s.timers) := by
  have hl := hs.live
  rcases schedulerCancel_cases pid id s with ⟨t, xs, ys, hlist, hid, hpid, found, he⟩ | h
  · left
    have mem : ∀ u, u ∈ s.timers ↔ u = t ∨ u ∈ xs ++ ys := by
      intro u
      rw [hlist]
      simp only [List.mem_append, List.mem_cons]
      tauto
    have hborn := hl.inv.good.timersBorn t ((mem t).mpr (.inl rfl))
    rw [he]
    refine ⟨rfl, t, xs, ys, hlist, rfl, hid, hpid, hborn, fun u hu hui => ?_, fun u hu hui => ?_,
      fun u hu hne => ?_, fun as s' hr => ?_⟩
    · exact hl.id_unique hc hu hborn (hui.trans hid.symm)
    · -- Two timers with one id would be one node at two places.
      have hur : u.ref = t.ref := hl.ref_eq (Nat.le_of_lt hc) hborn ((mem u).mpr (.inr hu)) (hui.trans hid.symm)
      have h₁ : s.store.places t.ref ≤ 1 := hl.inv.good.place_unique t.ref
      have h₂ := one_le_count hu
      have h₃ : s.store.timers = xs ++ t :: ys := hlist
      unfold Store.places at h₁
      rw [h₃] at h₁
      simp only [hur, List.map_append, List.map_cons, List.count_append,
        List.count_cons_self] at h₁ h₂
      omega
    · rcases (mem u).mp hu with rfl | hu
      · exact absurd hpid hne
      · exact hu
    · have hgood := (@Store.Move.cancel s.Stopped s.store _ _ _ _ found).good hl.inv.good
      exact @freed_never_fires
        { s.free t with timers := xs ++ ys, cancelled := t.ref :: s.cancelled } s' as t.ref
        ⟨hl.inv.stops, hgood⟩ List.mem_cons_self hr
  · exact .inr h

/-- A timer of plugin 1 with the id 1 waits. -/
def waitingRun : List Label := [.every ⟨1, 10, 1, 0, true, 0⟩, .insert 0, .ret 0]

/-- Its plugin cancels it for good, another plugin does not. -/
theorem cancel_final_and_local_waitingRun :
    ∃ s, machine.run waitingRun init = some s ∧
      (∃ t xs ys, s.timers = xs ++ t :: ys ∧ (schedulerCancel 1 1 s).2.timers = xs ++ ys ∧
        t.id = 1 ∧ ∀ as s', machine.run as (schedulerCancel 1 1 s).2 = some s' →
          s'.fired.count t.ref = s.fired.count t.ref) ∧
      (schedulerCancel 2 1 s).2.timers = s.timers := by
  obtain ⟨s, hs⟩ : ∃ s, s = (machine.run waitingRun init).getD init := ⟨_, rfl⟩
  have hrun : machine.run waitingRun init = some s := by rw [hs]; rfl
  have hborn : s.born.length < 2 ^ 31 - 1 := by rw [hs]; decide
  have hreach : Reach s := ⟨init, waitingRun, rfl, hrun⟩
  have own : (schedulerCancel 1 1 s).1 ≠ -1 := by rw [hs]; decide
  have foreign : (schedulerCancel 2 1 s).1 ≠ 0 := by rw [hs]; decide
  refine ⟨s, hrun, ?_, ?_⟩
  · rcases cancel_final_and_local hreach hborn 1 1 with ⟨-, t, xs, ys, hl, he, hid, -, -, -, -, -, hr⟩ | h
    · exact ⟨t, xs, ys, hl, he, hid, hr⟩
    · exact absurd h.1 own
  · rcases cancel_final_and_local hreach hborn 2 1 with h | h
    · exact absurd h.1 foreign
    · exact h.2

end Scheduler
end CoreCDTL
