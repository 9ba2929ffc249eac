import CoreCDTL.Scheduler.Cancel
import CoreCDTL.Scheduler.Deadline
import Mathlib.Algebra.Group.Int.Defs

/-!
# The scheduler: ids

`g_next_id` is an `int` that is counted up by each creation, never reset and never checked, and
`scheduler_cancel` refuses what is not positive.

* `IdsValid`: what `scheduler.h` promises of the ids that the creations return.
* `PositiveDraw`: the counter is positive when a creation takes its id. It stays so for
  `2 ^ 31 - 1` creations (`ids_keeps`), whose ids are all different.
* `timer_ids_iff`: the ids are valid in every state of a run exactly when all draws are positive.
-/

namespace CoreCDTL
namespace Scheduler

/-- The ids that were returned are at least 1 and belong to no other timer in the list, nor do the
ids of two timers there, and `scheduler_cancel` frees a timer of the list by its id and plugin. -/
structure IdsValid (s : State) : Prop where
  positive : ∀ t ∈ s.returned, 1 ≤ t.id
  apart : ∀ t, (t ∈ s.returned ∨ ∃ c ∈ s.returning, c.timer.toTimerInfo = t) →
    ∀ u ∈ s.timers, u.ref ≠ t.ref → u.id ≠ t.id
  distinct : ∀ t ∈ s.timers, ∀ u ∈ s.timers, u.ref ≠ t.ref → u.id ≠ t.id
  accepted : ∀ t ∈ s.timers, (schedulerCancel t.pluginId t.id s).1 = 0 ∧
    t.ref ∈ (schedulerCancel t.pluginId t.id s).2.freed

/-- A creation takes its id while `g_next_id` is positive. -/
def PositiveDraw (s : State) (a : Label) : Prop := a.drawn ≠ [] → 1 ≤ s.nextId

/-! ## Positive draws -/

/-- Positive draws are at most `2 ^ 31 - 1`. -/
theorem ids_keeps :
    machine.Keeps PositiveDraw fun s => Live s ∧ s.born.length ≤ 2 ^ 31 - 1 := by
  rintro s a s' ⟨hl, hlen⟩ hpos h
  refine ⟨live_keeps s a s' hl trivial h, ?_⟩
  rcases step_drawn h with ⟨-, hborn⟩ | ⟨c, repeating, hms, rfl⟩
  · rw [hborn]
    exact hlen
  · have hid : 1 ≤ s.nextId := hpos (by rw [hms]; exact List.cons_ne_nil _ _)
    have hnext : s.nextId = ((s.born.length : Int) + 1).bmod (2 ^ 32) := hl.traced.nextId
    have hlt : s.born.length ≠ 2 ^ 31 - 1 := by
      intro he
      rw [hnext, he] at hid
      exact absurd hid (by decide)
    simp only [State.draw, List.length_append, List.length_singleton]
    omega

/-- Two timers with one number after positive draws are the same. -/
theorem Live.id_ne {s : State} (hl : Live s) (hc : s.born.length ≤ 2 ^ 31 - 1) {t u : TimerInfo}
    (ht : s.born[t.ref]? = some t) (hu : s.born[u.ref]? = some u) (hne : u.ref ≠ t.ref) :
    u.id ≠ t.id := by
  have h₁ := hl.id_eq hc ht
  have h₂ := hl.id_eq hc hu
  omega

theorem Live.idsValid {s : State} (hl : Live s) (hc : s.born.length ≤ 2 ^ 31 - 1) :
    IdsValid s where
  positive := fun t ht => by
    have := hl.id_eq hc (hl.traced.returnedBorn t ht)
    omega
  apart := fun t ht u hu hne => by
    refine hl.id_ne hc ?_ (hl.inv.good.timersBorn u hu) hne
    rcases ht with ht | ⟨c, hcr, rfl⟩
    · exact hl.traced.returnedBorn t ht
    · exact hl.traced.returningBorn c hcr
  distinct := fun t ht u hu hne =>
    hl.id_ne hc (hl.inv.good.timersBorn t ht) (hl.inv.good.timersBorn u hu) hne
  accepted := fun t ht => by
    have hborn := hl.inv.good.timersBorn t ht
    have hpos : ¬ t.id ≤ 0 := by
      have := hl.id_eq hc hborn
      omega
    cases hrem : removeTimer t.pluginId t.id s.timers with
    | none => exact absurd ⟨rfl, rfl⟩ (removeTimer_none.mp hrem t ht)
    | some p =>
      -- The search stops at a timer with the id, which is `t`.
      obtain ⟨v, rest⟩ := p
      obtain ⟨xs, ys, hlist, -, hvid, -⟩ := removeTimer_some hrem
      have hv : v.ref = t.ref := hl.ref_eq hc hborn (by rw [hlist]; simp) hvid
      unfold schedulerCancel
      rw [if_neg hpos, hrem]
      exact ⟨rfl, by rw [← hv]; exact List.mem_cons_self⟩

/-! ## Every creation returns its id -/

/-- The call of every timer that was created is under way or has returned its id. -/
def Store.Asked (b : Store) : Prop :=
  ∀ t ∈ b.born, (∃ c ∈ b.creating, c.timer.toTimerInfo = t) ∨
    (∃ c ∈ b.returning, c.timer.toTimerInfo = t) ∨ t ∈ b.returned

theorem mem_eraseIdx_or {l : List Creation} {i : Nat} {c d : Creation} (hc : l[i]? = some c)
    (hd : d ∈ l) : d = c ∨ d ∈ l.eraseIdx i := by
  obtain ⟨hi, rfl⟩ := List.getElem?_eq_some_iff.mp hc
  exact List.mem_cons.mp ((List.getElem_cons_eraseIdx_perm hi).mem_iff.mpr hd)

theorem Store.Move.asked {P : Prop} {b b' : Store} (hm : Store.Move P b b') (ha : b.Asked) :
    b'.Asked := by
  cases hm with
  | draw t ms href hid =>
    intro u hu
    rcases List.mem_append.mp hu with hu | hu
    · rcases ha u hu with ⟨c, hc, rfl⟩ | h
      · exact .inl ⟨c, List.mem_append_left _ hc, rfl⟩
      · exact .inr h
    · obtain rfl := List.mem_singleton.mp hu
      exact .inl ⟨⟨t, ms⟩, List.mem_append_right _ (List.mem_singleton_self _), rfl⟩
  | link i c hc =>
    intro u hu
    rcases ha u hu with ⟨d, hd, rfl⟩ | ⟨d, hd, rfl⟩ | h
    · rcases mem_eraseIdx_or hc hd with rfl | hd
      · exact .inr (.inl ⟨d, List.mem_append_right _ (List.mem_singleton_self _), rfl⟩)
      · exact .inl ⟨d, hd, rfl⟩
    · exact .inr (.inl ⟨d, List.mem_append_left _ hd, rfl⟩)
    · exact .inr (.inr h)
  | ret i c hc =>
    intro u hu
    rcases ha u hu with h | ⟨d, hd, rfl⟩ | h
    · exact .inl h
    · rcases mem_eraseIdx_or hc hd with rfl | hd
      · exact .inr (.inr List.mem_cons_self)
      · exact .inr (.inl ⟨d, hd, rfl⟩)
    · exact .inr (.inr (List.mem_cons_of_mem _ h))
  | _ => exact ha

theorem asked_keeps : machine.Keeps (fun _ _ => True) fun s => Inv s ∧ s.store.Asked := by
  rintro s a s' ⟨hi, ha⟩ - h
  refine ⟨inv_keeps s a s' hi trivial h, ?_⟩
  rcases step_moves hi.stops h with he | hm
  · exact he ▸ ha
  · exact hm.asked ha

/-- Timers stay in the history. -/
theorem born_keeps (t : TimerInfo) : machine.Keeps (fun _ _ => True) fun s => t ∈ s.born := by
  intro s a s' ht _ h
  rcases step_drawn h with ⟨-, hborn⟩ | ⟨c, repeating, -, rfl⟩
  · rw [hborn]
    exact ht
  · exact List.mem_append_left _ ht

/-- Where all ids drawn in a run are positive, so were its draws. -/
theorem meets_of_born {as : List Label} {s s' : State} (h : machine.run as s = some s')
    (hborn : ∀ t ∈ s'.born, 1 ≤ t.id) : machine.Meets PositiveDraw as s := by
  induction as generalizing s with
  | nil => trivial
  | cons a as ih =>
    obtain ⟨u, hu, h⟩ := Machine.run_cons_some.mp h
    refine ⟨fun hdrawn => ?_, fun v hv => ?_⟩
    · rcases step_drawn hu with ⟨hnone, -⟩ | ⟨c, repeating, -, rfl⟩
      · exact absurd hnone hdrawn
      · refine hborn (s.newTimer c repeating).toTimerInfo ((born_keeps _).run_all ?_ h)
        exact List.mem_append_right _ (List.mem_singleton_self _)
    · cases hu.symm.trans hv
      exact ih h

/-- **When the ids are valid.** In a run whose draws are all positive they are valid in every state.
In a run at whose end every call has returned they are valid in every state if and only if all draws
were positive. -/
theorem timer_ids_iff {as : List Label} {s : State} (h : machine.run as init = some s) :
    (machine.Meets PositiveDraw as init →
      ∀ bs t, bs <+: as → machine.run bs init = some t → IdsValid t) ∧
    (s.creating = [] → s.returning = [] →
      ((∀ bs t, bs <+: as → machine.run bs init = some t → IdsValid t) ↔
        machine.Meets PositiveDraw as init)) := by
  have hvalid : machine.Meets PositiveDraw as init →
      ∀ bs t, bs <+: as → machine.run bs init = some t → IdsValid t := by
    rintro hm bs t ⟨cs, rfl⟩ ht
    obtain ⟨hl, hc⟩ := ids_keeps.run ⟨live_init, Nat.zero_le _⟩ hm.initial ht
    exact hl.idsValid hc
  refine ⟨hvalid, fun hcreating hreturning => ⟨fun hall => meets_of_born h fun t ht => ?_, hvalid⟩⟩
  -- Every timer that was created has returned its id.
  have hinit : Inv init ∧ init.store.Asked := ⟨live_init.inv, fun t ht => nomatch ht⟩
  have hasked := (asked_keeps.run_all hinit h).2 t ht
  rw [show s.store.creating = [] from hcreating, show s.store.returning = [] from hreturning] at hasked
  rcases hasked with ⟨c, hc, -⟩ | ⟨c, hc, -⟩ | hret
  · cases hc
  · cases hc
  · exact (hall as s (List.prefix_refl as) h).positive t hret

/-- A timer that is created, cancelled and followed by another one. -/
def reusedRun : List Label :=
  [.after ⟨1, 30, 1, 0, true, 0⟩, .insert 0, .ret 0, .cancel 1 1, .every ⟨1, 10, 1, 0, true, 0⟩,
    .insert 0, .ret 0]

theorem timer_ids_iff_reusedRun :
    ∃ s, machine.run reusedRun init = some s ∧
      ((∀ bs t, bs <+: reusedRun → machine.run bs init = some t → IdsValid t) ↔
        machine.Meets PositiveDraw reusedRun init) :=
  ⟨_, rfl, (@timer_ids_iff reusedRun _ rfl).2 rfl rfl⟩

/-! ## Past the last positive id -/

/-- A one-shot timer is created, called and freed. -/
def fireOnce : List Label :=
  [.after ⟨1, 0, 1, 0, true, 10⟩, .insert 0, .ret 0, .lock, .loop 10, .call, .cbReturn, .relock 10,
    .loop 10]

/-- The scheduler runs with no timer and waits, and no creation is under way. -/
structure Waiting (s : State) : Prop where
  timers : s.timers = []
  running : s.running = true
  pc : s.pc = .waiting
  creating : s.creating = []
  returning : s.returning = []
  shutdowns : s.shutdowns = []
  connected : s.connected = false

theorem Waiting.fireOnce {s : State} (hs : Waiting s) :
    ∃ s', machine.run fireOnce s = some s' ∧ Waiting s' ∧ s'.born.length = s.born.length + 1 := by
  obtain ⟨timers, nextId, running, pc, creating, returning, shutdowns, connected, messages, errors,
    born, inserted, freed, fired, returned, cancelled⟩ := s
  obtain ⟨rfl, rfl, rfl, rfl, rfl, rfl, rfl⟩ := hs
  exact ⟨_, rfl, ⟨rfl, rfl, rfl, rfl, rfl, rfl, rfl⟩, List.length_append⟩

/-- `n` one-shot timers, one after the other. -/
def fireRun (n : Nat) : List Label :=
  [.init true, .lock, .loop 10] ++ (List.replicate n fireOnce).flatten

theorem fireRun_run (n : Nat) :
    ∃ s, machine.run (fireRun n) init = some s ∧ Waiting s ∧ s.born.length = n := by
  induction n with
  | zero => exact ⟨_, rfl, ⟨rfl, rfl, rfl, rfl, rfl, rfl, rfl⟩, rfl⟩
  | succ n ih =>
    obtain ⟨s, hrun, hs, hlen⟩ := ih
    obtain ⟨s', hrun', hs', hlen'⟩ := hs.fireOnce
    refine ⟨s', ?_, hs', by rw [hlen', hlen]⟩
    have hsplit : fireRun (n + 1) = fireRun n ++ fireOnce := by
      simp [fireRun, List.replicate_succ']
    rw [hsplit]
    exact Machine.run_trans hrun hrun'

/-- A repeating timer is created. -/
def everyOnce : List Label := [.every ⟨1, 10, 1, 0, true, 20⟩, .insert 0, .ret 0]

/-- **The counter wraps.** After `2 ^ 31 - 1` timers the next creation returns `-2 ^ 31`, and
`scheduler_cancel` refuses this id although the timer is in the list. -/
theorem wrapped_id_refused :
    ∃ s t, machine.run (fireRun (2 ^ 31 - 1) ++ everyOnce) init = some s ∧ s.timers = [t] ∧
      t.toTimerInfo ∈ s.returned ∧ t.id = -2 ^ 31 ∧ (schedulerCancel t.pluginId t.id s).1 = -1 ∧
      ¬ IdsValid s := by
  obtain ⟨s, hrun, hs, hlen⟩ := fireRun_run (2 ^ 31 - 1)
  have hid : s.nextId = -2 ^ 31 := by
    have hnext : s.nextId = ((s.born.length : Int) + 1).bmod (2 ^ 32) :=
      (Reach.live ⟨init, _, rfl, hrun⟩).traced.nextId
    rw [hnext, hlen]
    decide
  obtain ⟨timers, nextId, running, pc, creating, returning, shutdowns, connected, messages, errors,
    born, inserted, freed, fired, returned, cancelled⟩ := s
  obtain ⟨rfl, rfl, rfl, rfl, rfl, rfl, rfl⟩ := hs
  subst hid
  refine ⟨_, _, Machine.run_trans hrun rfl, rfl, List.mem_cons_self, rfl, rfl, fun h => ?_⟩
  have hpos : (1 : Int) ≤ -2 ^ 31 := h.positive _ List.mem_cons_self
  exact absurd hpos (by decide)

end Scheduler
end CoreCDTL
