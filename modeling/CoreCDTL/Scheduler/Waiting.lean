import CoreCDTL.Scheduler.Order
import CoreCDTL.Lib.Progress
import CoreCDTL.Lib.Simulation

/-!
# The waits of the scheduler thread (`sched_thread` of `core/scheduler.c`)

The thread sleeps on `g_cv`, without a limit when there is no timer and until the first timer is due
otherwise. `Waits` adds to the scheduler what the thread waits for: only a broadcast, the limit or a
spurious wake-up ends a wait.

* `timedWait` computes the `timespec` of the limit from a second reading of the clock. It is
  normalised, and exactly as long after that reading as the timer is after the first one.
* `waits` simulates `Scheduler.machine`: all that holds of the scheduler's runs holds of these.
* `WaitsInv`: an unlimited wait means an empty list, and the limit of the other one is not after the
  first timer. A creation and a shutdown wake the thread, a cancellation need not.
* `no_oversleep`: a sleeping thread pops the first timer as soon as the clock has passed it, but for
  the time between its two readings.
* `shutdown_ends`: after `scheduler_shutdown` the thread comes to its end by itself.
-/

namespace CoreCDTL
namespace Scheduler

/-! ## The code -/

/-- `struct timespec`. -/
structure Timespec where
  sec : Nat
  nsec : Nat
  deriving DecidableEq, Repr

/-- The time in nanoseconds. -/
def Timespec.ns (ts : Timespec) : Nat := ts.sec * 1000000000 + ts.nsec

/-- What `now_ms` makes of a reading. -/
def Timespec.ms (ts : Timespec) : Nat := ts.sec * 1000 + ts.nsec / 1000000

/-- A reading of the clock has less than a second of nanoseconds. -/
def Timespec.Normal (ts : Timespec) : Prop := ts.nsec < 1000000000

instance (ts : Timespec) : Decidable ts.Normal := inferInstanceAs (Decidable (_ < _))

/-- The limit of the timed wait, for the first timer's `due`, the clock reading `now` of the loop
and the second reading `ts`. -/
def timedWait (now due : Nat) (ts : Timespec) : Timespec :=
  let waitMs := due - now
  let sec := ts.sec + waitMs / 1000
  let nsec := ts.nsec + waitMs % 1000 * 1000000
  if 1000000000 ≤ nsec then ⟨sec + 1, nsec - 1000000000⟩ else ⟨sec, nsec⟩

/-- What the thread waits for: nothing, `pthread_cond_wait`, or `pthread_cond_timedwait` on
`g_cv`. -/
inductive Wait where
  | awake
  | forever
  | until (now due : Nat) (ts : Timespec)
  deriving DecidableEq, Repr

/-- The scheduler with the wait of its thread. -/
structure Waits where
  state : State
  wait : Wait
  deriving DecidableEq, Repr

def Waits.init : Waits := ⟨Scheduler.init, .awake⟩

/-- A step of the scheduler, with the second reading of the clock that a round of the loop may make;
the limit of a wait passes; or a wait ends spuriously. -/
inductive WaitLabel where
  | act (a : Label) (ts : Timespec)
  | timeout (clock : Timespec)
  | spurious
  deriving DecidableEq, Repr

/-- The wait after a step: a round that finds nothing due goes to sleep, and `insert_timer` and
`scheduler_shutdown` are followed by a broadcast under the lock. -/
def waitAfter (a : Label) (ts : Timespec) (s s' : State) (w : Wait) : Wait :=
  match a with
  | .loop now =>
    if s'.pc = .waiting then
      match s.timers with
      | [] => .forever
      | t :: _ => .until now t.dueMs ts
    else w
  | .insert _ | .shutdown _ => .awake
  | _ => w

def Waits.step (a : WaitLabel) (x : Waits) : Option Waits :=
  match a with
  | .act a ts =>
    if a = .lock ∧ x.wait ≠ .awake then none
    else (Scheduler.step a x.state).map fun s => ⟨s, waitAfter a ts x.state s x.wait⟩
  | .timeout clock =>
    match x.wait with
    | .until now due ts =>
      if (timedWait now due ts).ns ≤ clock.ns then some { x with wait := .awake } else none
    | _ => none
  | .spurious => if x.wait = .awake then none else some { x with wait := .awake }

def waits : Machine Waits WaitLabel := ⟨Waits.step⟩

/-! ## The limit -/

/-- The limit is normalised, and lies `due - now` milliseconds after the second reading. -/
theorem timedWait_spec {now due : Nat} {ts : Timespec} (h : ts.Normal) :
    (timedWait now due ts).Normal ∧
      (timedWait now due ts).ns = ts.ns + (due - now) * 1000000 := by
  have hn : ts.nsec < 1000000000 := h
  unfold timedWait
  generalize due - now = waitMs
  dsimp only
  split
  · rename_i hcarry
    refine ⟨?_, ?_⟩
    · unfold Timespec.Normal
      dsimp only
      omega
    · unfold Timespec.ns
      dsimp only
      omega
  · rename_i hcarry
    refine ⟨?_, ?_⟩
    · unfold Timespec.Normal
      dsimp only
      omega
    · unfold Timespec.ns
      dsimp only
      omega

/-- A reading at or after a millisecond reads as that millisecond at least. -/
theorem le_ms {m : Nat} {ts : Timespec} (h : m * 1000000 ≤ ts.ns) : m ≤ ts.ms := by
  unfold Timespec.ns at h
  unfold Timespec.ms
  omega

/-! ## Simulation -/

/-- The scheduler's step of a label. -/
def WaitLabel.erase (_ : Waits) : WaitLabel → Option Label
  | .act a _ => some a
  | _ => none

theorem waits_simulates : waits.Simulates machine Waits.state WaitLabel.erase := by
  intro x a y h
  cases a with
  | act a ts =>
    simp only [waits, Waits.step] at h
    split at h
    · cases h
    · obtain ⟨s, hs, rfl⟩ := Option.map_eq_some_iff.mp h
      exact hs
  | timeout clock =>
    simp only [waits, Waits.step] at h
    split at h
    · split at h
      · cases h; rfl
      · cases h
    · cases h
  | spurious =>
    simp only [waits, Waits.step] at h
    split at h
    · cases h
    · cases h; rfl

/-- What holds of every reachable state of the scheduler holds in every run of `waits`. -/
theorem Waits.reach_state {x : Waits} (hx : waits.Reach (· = .init) x) : Reach x.state := by
  have hinit : ∀ y : Waits, y = .init → y.state = Scheduler.init := fun _ h => congrArg Waits.state h
  exact waits_simulates.reach hinit hx

/-! ## The invariant -/

/-- A sleeping thread has nothing to do: the scheduler runs, and the wait ends in time for every
timer of the list. -/
structure WaitsInv (x : Waits) : Prop where
  state : Inv x.state
  asleep : x.wait ≠ .awake → x.state.pc = .waiting ∧ x.state.running = true
  forever : x.wait = .forever → x.state.timers = []
  limit : ∀ now due ts, x.wait = .until now due ts →
    now < due ∧ ts.Normal ∧ ∀ t ∈ x.state.timers, due ≤ t.dueMs

/-- The second readings of the clock are normalised. -/
def WaitLabel.Normal : WaitLabel → Prop
  | .act _ ts => ts.Normal
  | _ => True

instance : (a : WaitLabel) → Decidable a.Normal
  | .act _ ts => inferInstanceAs (Decidable ts.Normal)
  | .timeout _ | .spurious => isTrue trivial

theorem waitsInv_init : WaitsInv .init where
  state := ⟨fun h => absurd rfl h, good_init⟩
  asleep := fun h => absurd rfl h
  forever := nofun
  limit := nofun

theorem waitsInv_awake {s : State} (h : Inv s) : WaitsInv ⟨s, .awake⟩ where
  state := h
  asleep := fun h => absurd rfl h
  forever := nofun
  limit := nofun

/-- What other threads do while the thread waits, but for a creation and a shutdown: no timer is
new. -/
theorem step_asleep {a : Label} {s s' : State} (h : step a s = some s') (hpc : s.pc = .waiting)
    (hlock : a ≠ .lock) (hins : ∀ i, a ≠ .insert i) (hdown : ∀ c, a ≠ .shutdown c) :
    s'.pc = .waiting ∧ s'.running = s.running ∧ ∀ t ∈ s'.timers, t ∈ s.timers := by
  have other : ∀ {p : Pc}, s.pc = p → p ≠ .waiting → False := fun h hp => hp (h.symm.trans hpc)
  cases step_turn h with
  | init absent => exact (other absent nofun).elim
  | refused => exact ⟨hpc, rfl, fun _ ht => ht⟩
  | after => exact ⟨hpc, rfl, fun _ ht => ht⟩
  | every => exact ⟨hpc, rfl, fun _ ht => ht⟩
  | insert => exact absurd rfl (hins _)
  | ret => exact ⟨hpc, rfl, fun _ ht => ht⟩
  | cancel _ _ found =>
    obtain ⟨l₁, l₂, h₁, h₂, -⟩ := removeTimer_some found
    refine ⟨hpc, rfl, fun u hu => ?_⟩
    rw [h₁]
    have hu : u ∈ l₁ ++ l₂ := h₂ ▸ hu
    rw [List.mem_append] at hu ⊢
    exact hu.imp id (List.mem_cons_of_mem _)
  | missed => exact ⟨hpc, rfl, fun _ ht => ht⟩
  | shutdown => exact absurd rfl (hdown _)
  | @cleanup c _ _ joined =>
    rw [hpc] at joined
    cases c with
    | callback => exact joined.elim
    | other => cases joined
  | lock => exact absurd rfl hlock
  | exit at_ => exact (other at_ nofun).elim
  | sleep at_ => exact (other at_ nofun).elim
  | pop at_ => exact (other at_ nofun).elim
  | call at_ => exact (other at_ nofun).elim
  | cbReturn at_ => exact (other at_ nofun).elim
  | cbCrash at_ => exact (other at_ nofun).elim
  | rearm at_ => exact (other at_ nofun).elim
  | release at_ => exact (other at_ nofun).elim
  | connect => exact ⟨hpc, rfl, fun _ ht => ht⟩

/-- A round of the loop goes to sleep with nothing due, or the thread does not sleep. -/
theorem waitsInv_loop {x : Waits} (hx : WaitsInv x) {now : Nat} {ts : Timespec} (hts : ts.Normal)
    (hw : x.wait = .awake) (hi : Inv (loopRound now x.state)) :
    WaitsInv ⟨loopRound now x.state,
      waitAfter (.loop now) ts x.state (loopRound now x.state) x.wait⟩ := by
  have hsorted : x.state.timers.Pairwise Timer.Before := hx.state.good.sorted
  have awake : ∀ {s : State}, loopRound now x.state = s → s.pc ≠ .waiting →
      WaitsInv ⟨s, waitAfter (.loop now) ts x.state s x.wait⟩ := fun hs hpc => by
    rw [waitAfter, if_neg hpc, hw]
    exact waitsInv_awake (hs ▸ hi)
  by_cases down : x.state.running = false
  · have hround : loopRound now x.state = { x.state with pc := .exited } := if_pos down
    rw [hround]
    exact awake hround nofun
  have hrun : x.state.running = true := by simpa using down
  cases hl : x.state.timers with
  | nil =>
    have hround : loopRound now x.state = { x.state with pc := .waiting } := by
      simp [loopRound, down, hl]
    have hwait : ∀ s' : State, s'.pc = .waiting →
        waitAfter (.loop now) ts x.state s' x.wait = .forever := fun s' h => by
      simp [waitAfter, h, hl]
    rw [hround] at hi ⊢
    rw [hwait _ rfl]
    exact ⟨hi, fun _ => ⟨rfl, hrun⟩, fun _ => hl, nofun⟩
  | cons t rest =>
    by_cases hdue : t.dueMs ≤ now
    · have hround : loopRound now x.state = { x.state with timers := rest, pc := .popped t } := by
        simp [loopRound, down, hl, hdue]
      rw [hround]
      exact awake hround nofun
    · have hround : loopRound now x.state = { x.state with pc := .waiting } := by
        simp [loopRound, down, hl, hdue]
      have hwait : ∀ s' : State, s'.pc = .waiting →
          waitAfter (.loop now) ts x.state s' x.wait = .until now t.dueMs ts := fun s' h => by
        simp [waitAfter, h, hl]
      rw [hround] at hi ⊢
      rw [hwait _ rfl]
      refine ⟨hi, fun _ => ⟨rfl, hrun⟩, nofun, fun now' due ts' h => ?_⟩
      cases h
      refine ⟨Nat.lt_of_not_le hdue, hts, fun u hu => ?_⟩
      -- The list is sorted: the first timer is due first.
      rw [hl] at hu hsorted
      rcases List.mem_cons.mp hu with rfl | hu
      · exact Nat.le_refl _
      · have hb := (List.pairwise_cons.mp hsorted).1 u hu
        unfold Timer.Before at hb
        omega

theorem waitsInv_keeps : waits.Keeps (fun _ a => a.Normal) WaitsInv := by
  intro x a y hx ha h
  cases a with
  | act a ts =>
    simp only [waits, Waits.step] at h
    split at h
    · cases h
    rename_i hlock
    obtain ⟨s, hs, rfl⟩ := Option.map_eq_some_iff.mp h
    have hi : Inv s := inv_keeps x.state a s hx.state trivial hs
    by_cases hins : ∃ i, a = .insert i
    · obtain ⟨i, rfl⟩ := hins
      exact waitsInv_awake hi
    by_cases hdown : ∃ c, a = .shutdown c
    · obtain ⟨c, rfl⟩ := hdown
      exact waitsInv_awake hi
    by_cases hloop : ∃ now, a = .loop now
    · obtain ⟨now, rfl⟩ := hloop
      obtain ⟨htop, he⟩ := Option.ite_none_right_eq_some.mp hs
      cases he
      have hw : x.wait = .awake := by
        by_contra hw
        rw [(hx.asleep hw).1] at htop
        cases htop
      exact waitsInv_loop hx ha hw hi
    -- No other step touches what the thread waits for.
    have hw : waitAfter a ts x.state s x.wait = x.wait := by
      unfold waitAfter
      split
      · exact absurd ⟨_, rfl⟩ hloop
      · exact absurd ⟨_, rfl⟩ hins
      · exact absurd ⟨_, rfl⟩ hdown
      · rfl
    rw [hw]
    by_cases hsleep : x.wait = .awake
    · rw [hsleep]
      exact waitsInv_awake hi
    obtain ⟨hpc, hrun⟩ := hx.asleep hsleep
    obtain ⟨hpc', hrun', hsub⟩ := step_asleep hs hpc (fun e => hlock ⟨e, hsleep⟩)
      (fun i e => hins ⟨i, e⟩) (fun c e => hdown ⟨c, e⟩)
    refine ⟨hi, fun _ => ⟨hpc', hrun'.trans hrun⟩, fun h => ?_, fun now due ts h => ?_⟩
    · have hnil := hx.forever h
      exact List.eq_nil_iff_forall_not_mem.mpr fun t ht => by
        have := hsub t ht
        rw [hnil] at this
        cases this
    · obtain ⟨h₁, h₂, h₃⟩ := hx.limit now due ts h
      exact ⟨h₁, h₂, fun t ht => h₃ t (hsub t ht)⟩
  | timeout clock =>
    simp only [waits, Waits.step] at h
    split at h
    · split at h
      · cases h
        exact waitsInv_awake hx.state
      · cases h
    · cases h
  | spurious =>
    simp only [waits, Waits.step] at h
    split at h
    · cases h
    · cases h
      exact waitsInv_awake hx.state

/-! ## Results -/

/-- **The thread does not oversleep.** After every run, a thread that sleeps has nothing to do: the
scheduler is not shut down, and either there is no timer or the wait has a limit. As soon as the
clock is past the first timer by the time between the two readings that the limit was computed from,
the limit has passed, and the thread's next steps pop this timer. -/
theorem no_oversleep (as : List WaitLabel) (x : Waits) (hr : waits.run as .init = some x)
    (has : ∀ a ∈ as, a.Normal) (hsleep : x.wait ≠ .awake) :
    x.state.running = true ∧
      ∀ t rest, x.state.timers = t :: rest →
        ∃ now due ts, x.wait = .until now due ts ∧ (timedWait now due ts).Normal ∧
          ∀ clock, now * 1000000 ≤ ts.ns →
            t.dueMs * 1000000 + (ts.ns - now * 1000000) ≤ clock.ns →
            ∃ y, waits.run
                [.timeout clock, .act .lock clock, .act (.loop clock.ms) clock] x = some y ∧
              y.state.pc = .popped t ∧ y.state.timers = rest := by
  have hx : WaitsInv x :=
    waitsInv_keeps.run waitsInv_init (Machine.Meets.of_mem (fun _ a ha => has a ha) _) hr
  obtain ⟨hpc, hrun⟩ := hx.asleep hsleep
  refine ⟨hrun, fun t rest hcons => ?_⟩
  cases hw : x.wait with
  | awake => exact absurd hw hsleep
  | forever =>
    rw [hx.forever hw] at hcons
    cases hcons
  | «until» now due ts =>
    obtain ⟨hlt, hts, hall⟩ := hx.limit now due ts hw
    have hdue : due ≤ t.dueMs := hall t (hcons ▸ List.mem_cons_self)
    obtain ⟨hnormal, hns⟩ : (timedWait now due ts).Normal ∧
        (timedWait now due ts).ns = ts.ns + (due - now) * 1000000 := timedWait_spec hts
    refine ⟨now, due, ts, rfl, hnormal, fun clock hlag hpast => ?_⟩
    have hlimit : (timedWait now due ts).ns ≤ clock.ns := by
      rw [hns]
      omega
    have hpop : t.dueMs ≤ clock.ms := le_ms (Nat.le_trans (Nat.le_add_right _ _) hpast)
    have wakes : waits.step (.timeout clock) x = some { x with wait := .awake } := by
      simp only [waits, Waits.step, hw, if_pos hlimit]
    have locks : waits.step (.act .lock clock) { x with wait := .awake }
        = some ⟨{ x.state with pc := .top }, .awake⟩ := by
      simp [waits, Waits.step, Scheduler.step, hpc, waitAfter]
    have pops : waits.step (.act (.loop clock.ms) clock) ⟨{ x.state with pc := .top }, .awake⟩
        = some ⟨{ x.state with timers := rest, pc := .popped t }, .awake⟩ := by
      simp [waits, Waits.step, Scheduler.step, loopRound, hrun, hcons, hpop, waitAfter]
    exact ⟨_, Machine.run_cons_some.mpr ⟨_, wakes, Machine.run_cons_some.mpr ⟨_, locks,
      Machine.run_cons_some.mpr ⟨_, pops, rfl⟩⟩⟩, rfl, rfl⟩

/-- A timer for the reading 30, and the thread asleep since the reading 10. -/
def asleepRun : List WaitLabel :=
  [.act (.init true) ⟨0, 0⟩, .act (.after ⟨1, 30, 1, 0, true, 0⟩) ⟨0, 0⟩, .act (.insert 0) ⟨0, 0⟩,
    .act .lock ⟨0, 0⟩, .act (.loop 10) ⟨0, 10700000⟩]

/-- The second reading came 0.7 ms after the first one: the timer is popped at 30.7 ms. -/
theorem no_oversleep_asleepRun :
    ∃ x y t, waits.run asleepRun .init = some x ∧ x.state.running = true ∧
      waits.run [.timeout ⟨0, 30700000⟩, .act .lock ⟨0, 30700000⟩, .act (.loop 30) ⟨0, 30700000⟩] x
        = some y ∧ y.state.pc = .popped t ∧ y.state.timers = [] := by
  obtain ⟨x, hx⟩ : ∃ x, x = (waits.run asleepRun .init).getD .init := ⟨_, rfl⟩
  have hrun : waits.run asleepRun .init = some x := by rw [hx]; rfl
  obtain ⟨t, ht⟩ : ∃ t, x.state.timers = [t] ∧ t.dueMs = 30 := by rw [hx]; exact ⟨_, rfl, rfl⟩
  have hwait : x.wait = .until 10 30 ⟨0, 10700000⟩ := by rw [hx]; rfl
  obtain ⟨hup, hpops⟩ := no_oversleep asleepRun x hrun (by decide) (by rw [hwait]; exact nofun)
  obtain ⟨now, due, ts, hw, -, hclock⟩ := hpops t [] ht.1
  rw [hwait] at hw
  cases hw
  obtain ⟨y, hy, hpc, hnil⟩ := hclock ⟨0, 30700000⟩ (by decide) (by rw [ht.2]; decide)
  exact ⟨x, y, t, hrun, hup, hy, hpc, hnil⟩

/-! ## The end of the thread -/

/-- The steps that the scheduler thread takes by itself, in a callback too. -/
def Label.OfThread : Label → Prop
  | .lock | .loop _ | .call | .cbReturn | .relock _ | .cleanup .callback => True
  | _ => False

def WaitLabel.OfThread : WaitLabel → Prop
  | .act a _ => a.OfThread
  | _ => False

/-- The steps of the thread that are left until it has ended. -/
def Pc.rank : Pc → Nat
  | .absent | .exited => 0
  | .top => 1
  | .start | .waiting => 2
  | .after _ => 3
  | .calling _ => 4
  | .popped _ => 5

def State.rank (s : State) : Nat := s.pc.rank + s.shutdowns.count .callback

/-- The scheduler is shut down, and only the thread has taken steps since `s₀`. -/
structure Ending (s₀ s : State) : Prop where
  down : s.running = false
  started : s.pc ≠ .absent
  creating : s.creating = s₀.creating
  born : s.born = s₀.born
  calls : s.pc.uncalled.map (·.ref) ++ s.fired = s₀.pc.uncalled.map (·.ref) ++ s₀.fired
  other : .other ∈ s₀.shutdowns → .other ∈ s.shutdowns

/-- A step that only moves the thread. -/
theorem Ending.moves {s₀ s : State} (h : Ending s₀ s) {p : Pc} (hp : p ≠ .absent)
    (hc : p.uncalled = s.pc.uncalled) : Ending s₀ { s with pc := p } :=
  { h with started := hp, calls := hc ▸ h.calls }

/-- One more step of the thread. -/
theorem Ending.next {s₀ s : State} (h : Ending s₀ s) (hpc : s.pc ≠ .exited) :
    ∃ a s', Label.OfThread a ∧ step a s = some s' ∧ Ending s₀ s' ∧ s'.rank < s.rank := by
  unfold State.rank
  cases hp : s.pc with
  | absent => exact absurd hp h.started
  | exited => exact absurd hp hpc
  | start =>
    exact ⟨.lock, _, trivial, if_pos (.inl hp), h.moves (fun e => by cases e) (by rw [hp]; rfl),
      Nat.add_lt_add_right (show 1 < 2 by decide) _⟩
  | waiting =>
    exact ⟨.lock, _, trivial, if_pos (.inr hp), h.moves (fun e => by cases e) (by rw [hp]; rfl),
      Nat.add_lt_add_right (show 1 < 2 by decide) _⟩
  | top =>
    have hround : loopRound 0 s = { s with pc := .exited } := if_pos h.down
    exact ⟨.loop 0, _, trivial, (if_pos hp).trans (congrArg some hround),
      h.moves (fun e => by cases e) (by rw [hp]; rfl),
      Nat.add_lt_add_right (show 0 < 1 by decide) _⟩
  | popped t =>
    have hcalls := h.calls
    rw [hp] at hcalls
    exact ⟨.call, { s with pc := .calling t, fired := t.ref :: s.fired }, trivial,
      by simp only [step, hp], { h with started := (fun e => by cases e), calls := hcalls },
      Nat.add_lt_add_right (show 4 < 5 by decide) _⟩
  | calling t =>
    by_cases hself : .callback ∈ s.shutdowns
    · -- The callback has called `scheduler_shutdown` itself: it frees the list before it returns.
      have hfree : s.LockFree := fun e => by
        rw [hp] at e
        cases e
      have hstep : step (.cleanup .callback) s =
          some { s.freeAll with shutdowns := s.shutdowns.erase .callback } :=
        if_pos ⟨hfree, hself, by rw [hp]; exact trivial⟩
      refine ⟨.cleanup .callback, _, trivial, hstep, { h with other := fun ho => ?_ }, ?_⟩
      · exact (List.mem_erase_of_ne (by decide)).mpr (h.other ho)
      · have hcount := List.count_pos_iff.mpr hself
        simp only [State.freeAll, hp, List.count_erase_self]
        omega
    · have hstep : step .cbReturn s = some { s with pc := .after t } := by
        simp only [step, hp, if_neg hself]
      exact ⟨.cbReturn, _, trivial, hstep, h.moves (fun e => by cases e) (by rw [hp]; rfl),
        Nat.add_lt_add_right (show 3 < 4 by decide) _⟩
  | after t =>
    have hrelock : Scheduler.relock t 0 s = { s.free t with pc := .top } :=
      if_neg fun again => by rw [h.down] at again; cases again.2
    have hstep : step (.relock 0) s = some { s.free t with pc := .top } := by
      simp only [step, hp, hrelock]
    have hcalls := h.calls
    rw [hp] at hcalls
    exact ⟨.relock 0, _, trivial, hstep,
      { h with started := (fun e => by cases e), calls := hcalls },
      Nat.add_lt_add_right (show 1 < 3 by decide) _⟩

/-- After the shutdown's broadcast the thread does not sleep any more. -/
theorem WaitsInv.awake {x : Waits} (hx : WaitsInv x) (hdown : x.state.running = false) :
    x.wait = .awake := by
  by_contra hw
  have hup := (hx.asleep hw).2
  rw [hdown] at hup
  cases hup

/-- Of an awake thread, the steps of the scheduler are steps of `waits`. -/
theorem WaitsInv.act {x : Waits} (hx : WaitsInv x) (hw : x.wait = .awake) {a : Label} {s : State}
    (hs : Scheduler.step a x.state = some s) :
    ∃ y, waits.step (.act a ⟨0, 0⟩) x = some y ∧ y.state = s ∧ WaitsInv y := by
  have hstep : waits.step (.act a ⟨0, 0⟩) x =
      some ⟨s, waitAfter a ⟨0, 0⟩ x.state s x.wait⟩ := by
    simp [waits, Waits.step, hw, hs]
  have hnormal : (WaitLabel.act a ⟨0, 0⟩).Normal := by
    show 0 < 1000000000
    decide
  exact ⟨_, hstep, rfl, waitsInv_keeps x _ _ hx hnormal hstep⟩

/-- Once the thread has ended, the list is freed: every timer that was linked is freed once. -/
theorem Ending.cleanup {s₀ : State} {y : Waits} (h : Ending s₀ y.state) (hy : WaitsInv y)
    (hend : y.state.pc = .exited) (hother : .other ∈ s₀.shutdowns) :
    ∃ z, waits.step (.act (.cleanup .other) ⟨0, 0⟩) y = some z ∧ z.state.timers = [] ∧
      ∀ r < s₀.born.length, (∀ c ∈ s₀.creating, c.timer.ref ≠ r) → z.state.freed.count r = 1 := by
  have hstep : Scheduler.step (.cleanup .other) y.state =
      some { y.state.freeAll with shutdowns := y.state.shutdowns.erase .other } :=
    if_pos ⟨by rw [State.LockFree, hend]; exact nofun, h.other hother, hend⟩
  obtain ⟨z, hz, he, hi⟩ := hy.act (hy.awake h.down) hstep
  refine ⟨z, hz, by rw [he]; rfl, fun r hr hc => ?_⟩
  have howned := hi.state.good.owned r
  have hcreating : (s₀.creating.map fun c => c.timer.ref).count r = 0 := by
    refine List.count_eq_zero.mpr fun hm => ?_
    obtain ⟨c, hmem, he⟩ := List.mem_map.mp hm
    exact hc c hmem he
  have hpopped : z.state.store.popped = [] := by
    simp only [State.store, he, State.freeAll, hend, Pc.uncalled]
  have hcalled : z.state.store.called = [] := by
    simp only [State.store, he, State.freeAll, hend, Pc.called]
  have htimers : z.state.store.timers = [] := by
    simp only [State.store, he, State.freeAll]
  have hcr : z.state.store.creating = s₀.creating := by
    simp only [State.store, he, State.freeAll, h.creating]
  have hborn : z.state.store.born = s₀.born := by
    simp only [State.store, he, State.freeAll, h.born]
  have hfreed : z.state.store.freed = z.state.freed := rfl
  rw [Store.places, hpopped, hcalled, htimers, hcr, hborn, hfreed, hcreating, if_pos hr] at howned
  simpa using howned

/-- **A shutdown ends.** In every state that a run reaches after `scheduler_shutdown` has cleared
`g_running`, the scheduler thread needs no other thread to come to its end, and calls nothing on the
way but the callback of a timer that it had popped already. Then `pthread_join` returns, and
`scheduler_shutdown` frees the list: every timer that had been linked is freed exactly once. -/
theorem shutdown_ends (as : List WaitLabel) (x : Waits) (hr : waits.run as .init = some x)
    (has : ∀ a ∈ as, a.Normal) (hdown : x.state.running = false)
    (hstarted : x.state.pc ≠ .absent) :
    waits.Reaches WaitLabel.OfThread
      (fun y => y.state.pc = .exited ∧
        y.state.fired = x.state.pc.uncalled.map (·.ref) ++ x.state.fired ∧
        (.other ∈ x.state.shutdowns →
          ∃ z, waits.step (.act (.cleanup .other) ⟨0, 0⟩) y = some z ∧ z.state.timers = [] ∧
            ∀ r < x.state.born.length, (∀ c ∈ x.state.creating, c.timer.ref ≠ r) →
              z.state.freed.count r = 1)) x := by
  have hx : WaitsInv x :=
    waitsInv_keeps.run waitsInv_init (Machine.Meets.of_mem (fun _ a ha => has a ha) _) hr
  have hends : waits.Reaches WaitLabel.OfThread
      (fun y => y.state.pc = .exited ∧ Ending x.state y.state ∧ WaitsInv y) x := by
    refine Machine.Reaches.of_variant (I := fun y => Ending x.state y.state ∧ WaitsInv y)
      (fun y => y.state.rank) ?_ ⟨⟨hdown, hstarted, rfl, rfl, rfl, id⟩, hx⟩
    rintro y ⟨h, hy⟩ hq
    have hpc : y.state.pc ≠ .exited := fun hpc => hq ⟨hpc, h, hy⟩
    obtain ⟨a, s, ha, hs, hn, hlt⟩ := h.next hpc
    obtain ⟨z, hz, he, hi⟩ := hy.act (hy.awake h.down) hs
    exact ⟨.act a ⟨0, 0⟩, z, ha, hz, ⟨he ▸ hn, hi⟩, he ▸ hlt⟩
  obtain ⟨bs, y, hbs, hy, hend, h, hi⟩ := hends
  refine ⟨bs, y, hbs, hy, hend, ?_, fun ho => h.cleanup hi hend ho⟩
  have hcalls := h.calls
  rw [hend] at hcalls
  exact hcalls

/-- A one-shot timer is in its callback when another thread calls `scheduler_shutdown`, and a
repeating one is in the list. -/
def downRun : List WaitLabel :=
  [.act (.init true) ⟨0, 0⟩, .act (.after ⟨1, 10, 1, 0, true, 0⟩) ⟨0, 0⟩,
    .act (.every ⟨1, 40, 1, 0, true, 0⟩) ⟨0, 0⟩, .act (.insert 0) ⟨0, 0⟩, .act (.insert 0) ⟨0, 0⟩,
    .act .lock ⟨0, 0⟩, .act (.loop 10) ⟨0, 0⟩, .act .call ⟨0, 0⟩, .act (.shutdown .other) ⟨0, 0⟩]

/-- The thread comes back from the callback, calls nothing more, and both timers are freed once. -/
theorem shutdown_ends_downRun :
    ∃ x, waits.run downRun .init = some x ∧ x.state.fired = [0] ∧
      waits.Reaches WaitLabel.OfThread
        (fun y => y.state.fired = [0] ∧
          ∃ z, waits.step (.act (.cleanup .other) ⟨0, 0⟩) y = some z ∧ z.state.timers = [] ∧
            ∀ r < 2, z.state.freed.count r = 1) x := by
  obtain ⟨x, hx⟩ : ∃ x, x = (waits.run downRun .init).getD .init := ⟨_, rfl⟩
  have hrun : waits.run downRun .init = some x := by rw [hx]; rfl
  have hfired : x.state.fired = [0] := by rw [hx]; rfl
  have hcalled : x.state.pc.uncalled = [] := by rw [hx]; rfl
  have hother : .other ∈ x.state.shutdowns := by rw [hx]; decide
  have hborn : x.state.born.length = 2 := by rw [hx]; rfl
  have hcreating : x.state.creating = [] := by rw [hx]; rfl
  obtain ⟨bs, y, hbs, hy, -, hf, hz⟩ := shutdown_ends downRun x hrun (by decide)
    (by rw [hx]; rfl) (by rw [hx]; exact nofun)
  refine ⟨x, hrun, hfired, bs, y, hbs, hy, ?_, ?_⟩
  · rw [hf, hcalled, hfired]
    rfl
  · obtain ⟨z, hstep, hnil, hfreed⟩ := hz hother
    refine ⟨z, hstep, hnil, fun r hr => hfreed r (hborn ▸ hr) fun c hc => ?_⟩
    rw [hcreating] at hc
    cases hc

end Scheduler
end CoreCDTL
