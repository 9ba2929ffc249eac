import CoreCDTL.Scheduler.Order

/-!
# The scheduler: deadlines

`due_ms` is a clock reading plus the `ms` of the creation, computed three times in `uint64_t`
arithmetic: by `scheduler_after_ms`, by `scheduler_every_ms` and when a repeating timer is linked
again.

* `timed` is the scheduler with the history of the `ms` arguments; the number of a timer is its
  index there.
* `Timer.Due`: what `due_ms` is, for every timer that is not freed (`due_keeps`).
* `no_timer_early_iff`: the timers that fire do so in time exactly when no sum of theirs wrapped.
-/

namespace CoreCDTL
namespace Scheduler

/-! ## The delays -/

/-- The `ms` of a creation that gets a timer. -/
def Label.drawn : Label → List Nat
  | .after c => if c.cb = 0 ∨ c.malloc = false then [] else [c.ms]
  | .every c => if (c.cb = 0 ∨ c.ms = 0) ∨ c.malloc = false then [] else [c.ms]
  | _ => []

/-- The scheduler and the `ms` of all creations. -/
structure Timed where
  st : State
  delays : List Nat

def Timed.init : Timed := ⟨Scheduler.init, []⟩

/-- The scheduler, with the history of the delays. -/
def timed : Machine Timed Label where
  step a x := (step a x.st).map fun s => ⟨s, x.delays ++ a.drawn⟩

/-- The clock readings and the `ms` arguments are of type `uint64_t`. -/
def Label.InRange : Label → Prop
  | .after c => c.now < 2 ^ 64 ∧ c.ms < 2 ^ 64
  | .every c => c.now < 2 ^ 64 ∧ c.ms < 2 ^ 64
  | .loop now => now < 2 ^ 64
  | .relock now => now < 2 ^ 64
  | _ => True

/-- The step takes `t` off the list to call it, at the clock reading `now`. -/
def Fires (s : State) (a : Label) (t : Timer) (now : Nat) : Prop :=
  a = .loop now ∧ ∃ s', step a s = some s' ∧ s'.pc = .popped t

/-- A timer that fires does so no earlier than its delay after the reading at which it was created
or armed again. -/
def OnTime (x : Timed) (a : Label) : Prop :=
  ∀ t now, Fires x.st a t now → ∃ ms, x.delays[t.ref]? = some ms ∧ t.armed + ms ≤ now

/-- The deadline of a timer that fires is a `uint64_t`. -/
def NoWrap (x : Timed) (a : Label) : Prop :=
  ∀ t now, Fires x.st a t now → ∃ ms, x.delays[t.ref]? = some ms ∧ t.armed + ms < 2 ^ 64

/-! ## What `due_ms` is -/

/-- `due_ms` is the sum of the last reading and the delay; a repeating timer keeps its delay. -/
def Timer.Due (delays : List Nat) (t : Timer) : Prop :=
  ∃ ms, delays[t.ref]? = some ms ∧ t.dueMs = addMs t.armed ms ∧
    (t.repeating = true → t.intervalMs = ms)

/-- The timers that are being created, in the list or in the thread's hand. -/
def State.Held (s : State) (t : Timer) : Prop :=
  (∃ c ∈ s.creating, c.timer = t) ∨ t ∈ s.timers ∨ t ∈ s.pc.hand

/-- Every timer that is not freed is due at the sum. -/
structure Timed.AllDue (x : Timed) : Prop where
  length : x.delays.length = x.st.born.length
  due : ∀ t, x.st.Held t → t.Due x.delays

theorem Timer.Due.append {delays : List Nat} {t : Timer} (h : t.Due delays) (ds : List Nat) :
    t.Due (delays ++ ds) := by
  obtain ⟨ms, hms, hdue, hrep⟩ := h
  obtain ⟨hlt, -⟩ := List.getElem?_eq_some_iff.mp hms
  exact ⟨ms, by rw [List.getElem?_append_left hlt, hms], hdue, hrep⟩

/-- `insert_timer` keeps the deadlines. -/
theorem Timer.Due.seq {delays : List Nat} {t : Timer} (h : t.Due delays) (n : Nat) :
    { t with seq := n }.Due delays := h

/-- A creation adds its timer and its delay. -/
theorem Timed.AllDue.draw {x : Timed} (hx : x.AllDue) (c : CreateArgs) (repeating : Bool) :
    Timed.AllDue ⟨x.st.draw c repeating, x.delays ++ [c.ms]⟩ := by
  constructor
  · simp [State.draw, hx.length]
  · rintro t (⟨d, hd, rfl⟩ | ht | ht)
    · rcases List.mem_append.mp hd with hd | hd
      · exact (hx.due _ (.inl ⟨d, hd, rfl⟩)).append _
      · obtain rfl := List.mem_singleton.mp hd
        refine ⟨c.ms, ?_, rfl, fun hr => if_pos hr⟩
        show (x.delays ++ [c.ms])[x.st.born.length]? = some c.ms
        rw [← hx.length, List.getElem?_concat_length]
    · exact (hx.due _ (.inr (.inl ht))).append _
    · exact (hx.due _ (.inr (.inr ht))).append _

/-- Where the timers of a step that draws none come from: they were there before it, up to the number
of their insertion, or a repeating one was armed again. -/
theorem step_held {a : Label} {s s' : State} (h : step a s = some s') (hborn : s'.born = s.born)
    {t : Timer} (ht : s'.Held t) :
    (∃ u n, s.Held u ∧ t = { u with seq := n }) ∨
      ∃ u now n, s.Held u ∧ u.repeating = true ∧
        t = { u with dueMs := addMs now u.intervalMs, armed := now, seq := n } := by
  have same : ∀ {u}, s.Held u → (∃ v n, s.Held v ∧ u = { v with seq := n }) ∨
      ∃ v now n, s.Held v ∧ v.repeating = true ∧
        u = { v with dueMs := addMs now v.intervalMs, armed := now, seq := n } :=
    fun {u} hu => .inl ⟨u, u.seq, hu, rfl⟩
  cases step_turn h with
  | after cb node => simp [State.draw] at hborn
  | every cb ms node => simp [State.draw] at hborn
  | refused | ret | missed | shutdown | connect => exact same ht
  | init absent =>
    rcases ht with ht | ht | ht
    · exact same (.inl ht)
    · exact same (.inr (.inl ht))
    · rename_i ok
      cases ok <;> exact absurd ht (by simp [Pc.hand])
  | @insert i c at_ free =>
    rcases ht with ⟨d, hd, rfl⟩ | ht | ht
    · exact same (.inl ⟨d, List.mem_of_mem_eraseIdx hd, rfl⟩)
    · rcases mem_insertTimer.mp ht with rfl | ht
      · exact .inl ⟨c.timer, s.inserted, .inl ⟨c, List.mem_of_getElem? at_, rfl⟩, rfl⟩
      · exact same (.inr (.inl ht))
    · exact same (.inr (.inr ht))
  | cancel free pos found =>
    obtain ⟨xs, ys, hl, rfl, -⟩ := removeTimer_some found
    rcases ht with ht | ht | ht
    · exact same (.inl ht)
    · refine same (.inr (.inl ?_))
      rw [hl]
      rcases List.mem_append.mp ht with ht | ht
      · exact List.mem_append_left _ ht
      · exact List.mem_append_right _ (List.mem_cons_of_mem _ ht)
    · exact same (.inr (.inr ht))
  | cleanup free mem joined =>
    rcases ht with ht | ht | ht
    · exact same (.inl ht)
    · cases ht
    · exact same (.inr (.inr ht))
  | lock | exit | sleep =>
    rcases ht with ht | ht | ht
    · exact same (.inl ht)
    · exact same (.inr (.inl ht))
    · cases ht
  | @pop now u rest at_ up first due =>
    rcases ht with ht | ht | ht
    · exact same (.inl ht)
    · exact same (.inr (.inl (first ▸ List.mem_cons_of_mem _ ht)))
    · obtain rfl := List.mem_singleton.mp ht
      exact same (.inr (.inl (first ▸ List.mem_cons_self)))
  | call at_ | cbReturn at_ | cbCrash at_ =>
    rcases ht with ht | ht | ht
    · exact same (.inl ht)
    · exact same (.inr (.inl ht))
    · exact same (.inr (.inr (at_ ▸ ht)))
  | @rearm now u at_ again =>
    rcases ht with ht | ht | ht
    · exact same (.inl ht)
    · rcases mem_insertTimer.mp ht with rfl | ht
      · have hu : s.Held u := .inr (.inr (by rw [at_]; exact List.mem_singleton_self u))
        exact .inr ⟨u, now, s.inserted, hu, again.1, rfl⟩
      · exact same (.inr (.inl ht))
    · cases ht
  | release at_ last =>
    rcases ht with ht | ht | ht
    · exact same (.inl ht)
    · exact same (.inr (.inl ht))
    · cases ht

/-- A step that draws no timer. -/
theorem Timed.AllDue.frame {x : Timed} (hx : x.AllDue) {a : Label} {s : State}
    (h : step a x.st = some s) (hborn : s.born = x.st.born) :
    Timed.AllDue ⟨s, x.delays ++ []⟩ := by
  rw [List.append_nil]
  refine ⟨by rw [hx.length, ← hborn], fun t ht => ?_⟩
  rcases step_held h hborn ht with ⟨u, n, hu, rfl⟩ | ⟨u, now, n, hu, hr, rfl⟩
  · exact (hx.due u hu).seq n
  · -- The timer is due at the new reading plus its interval, which is its delay.
    obtain ⟨ms, hms, -, hrep⟩ := hx.due u hu
    exact ⟨ms, hms, by rw [← hrep hr], hrep⟩

/-- A step draws the timer of its label, or none. -/
theorem step_drawn {a : Label} {s s' : State} (h : step a s = some s') :
    (a.drawn = [] ∧ s'.born = s.born) ∨
      ∃ c repeating, a.drawn = [c.ms] ∧ s' = s.draw c repeating := by
  cases a with
  | after c =>
    by_cases hcb : c.cb = 0
    · cases h
      exact .inl ⟨if_pos (.inl hcb), by rw [schedulerAfterMs, if_pos hcb]⟩
    by_cases hm : c.malloc = false
    · cases h
      exact .inl ⟨if_pos (.inr hm), by rw [schedulerAfterMs, if_neg hcb, if_pos hm]⟩
    · cases h
      exact .inr ⟨c, false, if_neg (not_or.mpr ⟨hcb, hm⟩),
        by rw [schedulerAfterMs, if_neg hcb, if_neg hm]⟩
  | every c =>
    by_cases hcb : c.cb = 0 ∨ c.ms = 0
    · cases h
      exact .inl ⟨if_pos (.inl hcb), by rw [schedulerEveryMs, if_pos hcb]⟩
    by_cases hm : c.malloc = false
    · cases h
      exact .inl ⟨if_pos (.inr hm), by rw [schedulerEveryMs, if_neg hcb, if_pos hm]⟩
    · cases h
      exact .inr ⟨c, true, if_neg (not_or.mpr ⟨hcb, hm⟩),
        by rw [schedulerEveryMs, if_neg hcb, if_neg hm]⟩
  | _ =>
    refine .inl ⟨rfl, ?_⟩
    cases step_turn h <;> rfl

/-- **One step.** -/
theorem due_keeps : timed.Keeps (fun _ _ => True) Timed.AllDue := by
  intro x a x' hx _ h
  obtain ⟨s, hs, rfl⟩ := Option.map_eq_some_iff.mp h
  rcases step_drawn hs with ⟨hnone, hborn⟩ | ⟨c, repeating, hms, rfl⟩
  · rw [hnone]
    exact hx.frame hs hborn
  · rw [hms]
    exact hx.draw c repeating

theorem due_init : Timed.init.AllDue where
  length := rfl
  due := by
    rintro t (⟨c, hc, -⟩ | ht | ht)
    · cases hc
    · cases ht
    · cases ht

/-! ## When a timer fires -/

theorem addMs_of_lt {a b : Nat} (h : a + b < 2 ^ 64) : addMs a b = a + b := Nat.mod_eq_of_lt h

/-- **One firing.** It is in time exactly when the sum did not wrap. -/
theorem fires_onTime {x : Timed} (hx : x.AllDue) {a : Label} (ha : a.InRange) :
    OnTime x a ↔ NoWrap x a := by
  refine forall₃_congr fun t now hf => exists_congr fun ms => and_congr_right fun hms => ?_
  obtain ⟨rfl, s', hs, hp⟩ := hf
  have hpc : x.st.pc ≠ .popped t := by
    intro he
    simp [step, he] at hs
  obtain ⟨now', hnow, hdue, hlist⟩ := step_popped hs hp hpc
  cases hnow
  obtain ⟨ms', hms', hsum, -⟩ := hx.due t (.inr (.inl (by rw [hlist]; exact List.mem_cons_self)))
  cases hms.symm.trans hms'
  rw [hsum] at hdue
  have hnow : now < 2 ^ 64 := ha
  constructor
  · exact fun h => Nat.lt_of_le_of_lt h hnow
  · intro h
    rw [addMs_of_lt h] at hdue
    exact hdue

/-- **No timer fires early, unless its deadline wraps.** For every run and all clock readings and
delays in the range of `uint64_t`: each timer that fires does so at a reading that is at least the
one at which it was created or last armed again plus its `ms`, if and only if for each of them this
sum is below `2 ^ 64`. -/
theorem no_timer_early_iff {as : List Label} (ha : ∀ a ∈ as, a.InRange) :
    timed.Meets OnTime as Timed.init ↔ timed.Meets NoWrap as Timed.init := by
  have hrange : timed.Meets (fun _ a => a.InRange) as Timed.init :=
    Machine.Meets.of_mem (fun _ => ha) _
  constructor
  · intro h
    exact (due_keeps.mono fun _ _ _ => trivial).meets
      (fun x a hx hg => (fires_onTime hx hg.1).mp hg.2) due_init (hrange.and h)
  · intro h
    exact (due_keeps.mono fun _ _ _ => trivial).meets
      (fun x a hx hg => (fires_onTime hx hg.1).mpr hg.2) due_init (hrange.and h)

/-- A timer of 10 ms and one of 30 ms; the first is due. -/
theorem no_timer_early_iff_sampleRun :
    timed.Meets OnTime sampleRun Timed.init ↔ timed.Meets NoWrap sampleRun Timed.init :=
  no_timer_early_iff (by simp [sampleRun, Label.InRange])

/-- A timer of `2 ^ 64 - 1` ms that is created at the reading 5, and a round of the thread's loop at
the same reading. -/
def longRun : List Label :=
  [.init true, .after ⟨1, 2 ^ 64 - 1, 1, 0, true, 5⟩, .insert 0, .lock, .loop 5]

/-- **The longest timer fires at once.** -/
theorem longest_timer_fires :
    (∀ a ∈ longRun, a.InRange) ∧ ∃ x t, timed.run (longRun.take 4) Timed.init = some x ∧
      Fires x.st (.loop 5) t 5 ∧ t.armed = 5 ∧ x.delays[t.ref]? = some (2 ^ 64 - 1) ∧
      ¬ timed.Meets OnTime longRun Timed.init := by
  refine ⟨by simp [longRun, Label.InRange], _,
    ⟨⟨0, 1, 0, 1, 0, 1, false⟩, 4, 5, 0⟩, rfl, ⟨rfl, _, rfl, rfl⟩, rfl, rfl, fun h => ?_⟩
  have hloop := ((((h.2 _ rfl).2 _ rfl).2 _ rfl).2 _ rfl).1
  obtain ⟨ms, hms, hle⟩ := hloop ⟨⟨0, 1, 0, 1, 0, 1, false⟩, 4, 5, 0⟩ 5 ⟨rfl, _, rfl, rfl⟩
  cases hms
  exact absurd hle (by decide)

end Scheduler
end CoreCDTL
