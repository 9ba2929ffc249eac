import CoreCDTL.Lib.Progress
import CoreCDTL.Lib.Sync
import Mathlib.Logic.Function.Basic

/-!
# The daemon's signal (`core/cored.c`)

`SIGUSR1` asks the daemon for its control socket. The handler sets `g_ctl_run` and signals `g_cond`;
`core_loop` waits for that and then runs `unix_sock_ctl_run`.

* The kernel delivers the signal to any thread, `core_loop`'s own thread `τ₀` included; a thread runs
  its handler before it goes on, and does not get the signal again in the meantime.
* `LoopPc` and `HandlerPc` are the next statements of `core_loop` and of a handler.
* `Free`: no handler of `τ₀` waits for the `g_mutex` that `τ₀` holds itself.
* `signal_served_iff`: after a signal, `core_loop` can still come to `unix_sock_ctl_run` if and only
  if no signal came to `τ₀` while it held `g_mutex` and `g_ctl_run` was 0.
-/

namespace CoreCDTL
namespace Control

open Function (update)

/-! ## The code -/

/-- The next statement of `core_loop`. `sleep` is inside `pthread_cond_wait`, without the mutex, and
`relock` is its end. -/
inductive LoopPc where
  | test
  | lock
  | wait
  | sleep
  | relock
  | check
  | unlock
  | serve
  | out
  deriving DecidableEq, Repr

/-- The next statement of `signal_cli_handle`. -/
inductive HandlerPc where
  | test
  | lock
  | set
  | signal
  | unlock
  deriving DecidableEq, Repr

/-- `core_loop` is between its lock and its unlock. -/
def LoopPc.holds : LoopPc → Bool
  | .wait | .check | .unlock => true
  | _ => false

/-- The handler is between its lock and its unlock. -/
def HandlerPc.holds : HandlerPc → Bool
  | .set | .signal | .unlock => true
  | _ => false

/-- `g_run`, `g_ctl_run`, `g_mutex`, `core_loop` and the handlers of the threads. -/
structure Daemon (τ : Type) where
  run : Bool
  ctlRun : Bool
  mutex : Mutex τ
  pc : LoopPc
  handler : τ → Option HandlerPc

def Daemon.start {τ : Type} : Daemon τ where
  run := true
  ctlRun := false
  mutex := .free
  pc := .test
  handler := fun _ => none

/-- The signal is delivered to a thread, a handler goes on, `core_loop` goes on, or the wait of
`core_loop` ends without a signal. -/
inductive Signal (τ : Type) where
  | sigusr1 (t : τ)
  | handler (t : τ)
  | loop
  | spurious

variable {τ : Type}

section Code

variable [DecidableEq τ]

/-- `core_loop`, as the thread `τ₀`. -/
def Daemon.loopStep (τ₀ : τ) (s : Daemon τ) : Option (Daemon τ) :=
  match s.pc with
  | .test => some { s with pc := if s.run then .lock else .out }
  | .lock => (s.mutex.lock τ₀).map fun m => { s with mutex := m, pc := .wait }
  | .wait =>
    if s.ctlRun = false ∧ s.run then some { s with mutex := s.mutex.unlock, pc := .sleep }
    else some { s with pc := .check }
  | .sleep => none
  | .relock => (s.mutex.lock τ₀).map fun m => { s with mutex := m, pc := .wait }
  | .check =>
    if s.run then some { s with pc := .unlock }
    else some { s with mutex := s.mutex.unlock, pc := .out }
  | .unlock => some { s with mutex := s.mutex.unlock, pc := .serve }
  | .serve => some { s with pc := .test }
  | .out => none

/-- `signal_cli_handle` on the thread `t`. -/
def Daemon.handlerStep (t : τ) (s : Daemon τ) : Option (Daemon τ) :=
  match s.handler t with
  | none => none
  | some .test =>
    some { s with handler := update s.handler t (if s.ctlRun then none else some .lock) }
  | some .lock =>
    (s.mutex.lock t).map fun m => { s with mutex := m, handler := update s.handler t (some .set) }
  | some .set => some { s with ctlRun := true, handler := update s.handler t (some .signal) }
  | some .signal =>
    some { s with
      pc := if s.pc = .sleep then .relock else s.pc
      handler := update s.handler t (some .unlock) }
  | some .unlock =>
    some { s with mutex := s.mutex.unlock, handler := update s.handler t none }

def Daemon.step (τ₀ : τ) (a : Signal τ) (s : Daemon τ) : Option (Daemon τ) :=
  match a with
  | .sigusr1 t =>
    if s.handler t = none then some { s with handler := update s.handler t (some .test) } else none
  | .handler t => s.handlerStep t
  | .loop => if s.handler τ₀ = none then s.loopStep τ₀ else none
  | .spurious => if s.pc = .sleep then some { s with pc := .relock } else none

def daemon (τ₀ : τ) : Machine (Daemon τ) (Signal τ) := ⟨Daemon.step τ₀⟩

end Code

/-! ## Invariants -/

/-- The signal does not come to `τ₀` while it holds the mutex and `g_ctl_run` is 0. -/
def Apart (τ₀ : τ) (s : Daemon τ) (a : Signal τ) : Prop :=
  a = .sigusr1 τ₀ → s.pc.holds = true → s.ctlRun = true

/-- A thread is in the critical section. -/
def Daemon.inside (τ₀ : τ) (s : Daemon τ) (t : τ) : Prop :=
  (t = τ₀ ∧ s.pc.holds = true) ∨ (s.handler t).any HandlerPc.holds = true

/-- The mutex is held by the thread in the critical section, `core_loop` goes past its wait only with
`g_ctl_run` set, and it sleeps then only while a handler is about to wake it. -/
structure DaemonInv (τ₀ : τ) (s : Daemon τ) : Prop where
  run : s.run = true
  running : s.pc ≠ .out
  mutex : ∀ t, s.mutex = .held t ↔ s.inside τ₀ t
  intact : s.mutex ≠ .destroyed
  once : s.pc.holds = true → (s.handler τ₀).any HandlerPc.holds = false
  past : s.pc = .check ∨ s.pc = .unlock → s.ctlRun = true
  set : ∀ t, s.handler t = some .signal ∨ s.handler t = some .unlock → s.ctlRun = true
  asleep : s.pc = .sleep → s.ctlRun = true → ∃ t, s.handler t = some .signal

/-- The handler of `τ₀` has not found `g_ctl_run` 0 while `τ₀` holds the mutex. -/
def Free (τ₀ : τ) (s : Daemon τ) : Prop :=
  s.pc.holds = true → ∀ h, s.handler τ₀ = some h → h = .test ∧ s.ctlRun = true

/-- A signal was delivered. -/
def Asked (s : Daemon τ) : Prop := s.ctlRun = true ∨ ∃ t, s.handler t ≠ none

variable {τ₀ : τ} {s s' : Daemon τ}

theorem daemonInv_start : DaemonInv τ₀ Daemon.start where
  run := rfl
  running := nofun
  mutex := fun t => iff_of_false nofun (by simp [Daemon.inside, Daemon.start, LoopPc.holds])
  intact := nofun
  once := nofun
  past := by simp [Daemon.start]
  set := by simp [Daemon.start]
  asleep := nofun

theorem mutex_free (h : DaemonInv τ₀ s) : s.mutex = .free ∨ ∃ t, s.mutex = .held t := by
  cases hm : s.mutex with
  | free => exact .inl rfl
  | held t => exact .inr ⟨t, rfl⟩
  | destroyed => exact absurd hm h.intact

/-- What a lock of the mutex finds. -/
theorem lock_eq (h : DaemonInv τ₀ s) {t : τ} {m : Mutex τ} (hl : s.mutex.lock t = some m) :
    s.mutex = .free ∧ m = .held t := by
  rcases mutex_free h with hf | ⟨u, hu⟩
  · rw [hf] at hl
    cases hl
    exact ⟨hf, rfl⟩
  · rw [hu] at hl
    cases hl

theorem not_inside_of_free (h : DaemonInv τ₀ s) (hf : s.mutex = .free) (t : τ) :
    ¬ s.inside τ₀ t := by
  rw [← h.mutex, hf]
  nofun

/-! ## One step -/

variable [DecidableEq τ]

/-- A handler that signals stays there while another thread's handler moves. -/
theorem asleep_update (h : DaemonInv τ₀ s) {t : τ} {x : Option HandlerPc}
    (ht : s.handler t ≠ some .signal) (hpc : s.pc = .sleep) (hc : s.ctlRun = true) :
    ∃ u, update s.handler t x u = some .signal := by
  obtain ⟨u, hu⟩ := h.asleep hpc hc
  refine ⟨u, ?_⟩
  rw [Function.update_of_ne (by rintro rfl; exact ht hu)]
  exact hu

theorem daemonInv_sigusr1 (hi : DaemonInv τ₀ s) {t : τ} (ht : s.handler t = none) :
    DaemonInv τ₀ { s with handler := update s.handler t (some .test) } where
  run := hi.run
  running := hi.running
  mutex := by
    have := hi.mutex
    grind [Daemon.inside, HandlerPc.holds]
  intact := hi.intact
  once := by
    have := hi.once
    grind [HandlerPc.holds]
  past := hi.past
  set := by
    have := hi.set
    grind
  asleep := asleep_update hi (by rw [ht]; nofun)

theorem daemonInv_handler (hi : DaemonInv τ₀ s) {t : τ} (h : s.handlerStep t = some s') :
    DaemonInv τ₀ s' := by
  obtain ⟨run, running, mutex, intact, once, past, set, asleep⟩ := hi
  have hi : DaemonInv τ₀ s := ⟨run, running, mutex, intact, once, past, set, asleep⟩
  unfold Daemon.handlerStep at h
  split at h
  · cases h
  · rename_i ht
    cases h
    refine ⟨run, running, ?_, intact, ?_, past, ?_, asleep_update hi (by rw [ht]; nofun)⟩
    all_goals grind [Daemon.inside, HandlerPc.holds]
  · rename_i ht
    obtain ⟨m, hm, rfl⟩ := Option.map_eq_some_iff.mp h
    obtain ⟨hf, rfl⟩ := lock_eq hi hm
    have hnone := not_inside_of_free hi hf
    refine ⟨run, running, ?_, nofun, ?_, past, ?_, asleep_update hi (by rw [ht]; nofun)⟩
    all_goals grind [Daemon.inside, HandlerPc.holds]
  · rename_i ht
    cases h
    refine ⟨run, running, ?_, intact, ?_, fun _ => rfl, fun _ _ => rfl,
      fun _ _ => ⟨t, Function.update_self ..⟩⟩
    all_goals grind [Daemon.inside, HandlerPc.holds]
  · rename_i ht
    cases h
    refine ⟨run, ?_, ?_, intact, ?_, ?_, ?_, ?_⟩
    all_goals grind [Daemon.inside, HandlerPc.holds, LoopPc.holds]
  · rename_i ht
    cases h
    have hheld : s.mutex = .held t := (mutex t).mpr (.inr (by rw [ht]; rfl))
    refine ⟨run, running, ?_, ?_, ?_, past, ?_, asleep_update hi (by rw [ht]; nofun)⟩
    all_goals grind [Daemon.inside, HandlerPc.holds, Mutex.unlock]

omit [DecidableEq τ] in
theorem loopStep_keeps (h : s.loopStep τ₀ = some s') :
    s'.handler = s.handler ∧ s'.ctlRun = s.ctlRun := by
  have locked : ∀ {m : Option (Mutex τ)},
      (m.map fun m => { s with mutex := m, pc := LoopPc.wait }) = some s' →
      s'.handler = s.handler ∧ s'.ctlRun = s.ctlRun := fun h => by
    obtain ⟨m, -, rfl⟩ := Option.map_eq_some_iff.mp h
    exact ⟨rfl, rfl⟩
  unfold Daemon.loopStep at h
  split at h
  · cases h; exact ⟨rfl, rfl⟩
  · exact locked h
  · split at h <;> cases h <;> exact ⟨rfl, rfl⟩
  · cases h
  · exact locked h
  · split at h <;> cases h <;> exact ⟨rfl, rfl⟩
  · cases h; exact ⟨rfl, rfl⟩
  · cases h; exact ⟨rfl, rfl⟩
  · cases h

omit [DecidableEq τ] in
theorem daemonInv_loop (hi : DaemonInv τ₀ s) (hh : s.handler τ₀ = none)
    (h : s.loopStep τ₀ = some s') : DaemonInv τ₀ s' := by
  obtain ⟨run, running, mutex, intact, once, past, set, asleep⟩ := hi
  have hi : DaemonInv τ₀ s := ⟨run, running, mutex, intact, once, past, set, asleep⟩
  unfold Daemon.loopStep at h
  split at h
  · rename_i hpc
    cases h
    rw [if_pos run]
    refine ⟨run, nofun, ?_, intact, nofun, nofun, set, nofun⟩
    grind [Daemon.inside, LoopPc.holds]
  · rename_i hpc
    obtain ⟨m, hm, rfl⟩ := Option.map_eq_some_iff.mp h
    obtain ⟨hf, rfl⟩ := lock_eq hi hm
    have hnone := not_inside_of_free hi hf
    refine ⟨run, nofun, ?_, nofun, ?_, nofun, set, nofun⟩
    all_goals grind [Daemon.inside, LoopPc.holds]
  · rename_i hpc
    have hheld : s.mutex = .held τ₀ := (mutex τ₀).mpr (.inl ⟨rfl, by rw [hpc]; rfl⟩)
    split at h
    · cases h
      refine ⟨run, nofun, ?_, ?_, nofun, nofun, set, ?_⟩
      all_goals grind [Daemon.inside, LoopPc.holds, Mutex.unlock]
    · cases h
      refine ⟨run, nofun, ?_, intact, ?_, ?_, set, nofun⟩
      all_goals grind [Daemon.inside, LoopPc.holds]
  · cases h
  · rename_i hpc
    obtain ⟨m, hm, rfl⟩ := Option.map_eq_some_iff.mp h
    obtain ⟨hf, rfl⟩ := lock_eq hi hm
    have hnone := not_inside_of_free hi hf
    refine ⟨run, nofun, ?_, nofun, ?_, nofun, set, nofun⟩
    all_goals grind [Daemon.inside, LoopPc.holds]
  · rename_i hpc
    rw [if_pos run] at h
    cases h
    refine ⟨run, nofun, ?_, intact, ?_, ?_, set, nofun⟩
    all_goals grind [Daemon.inside, LoopPc.holds]
  · rename_i hpc
    have hheld : s.mutex = .held τ₀ := (mutex τ₀).mpr (.inl ⟨rfl, by rw [hpc]; rfl⟩)
    cases h
    refine ⟨run, nofun, ?_, ?_, nofun, nofun, set, nofun⟩
    all_goals grind [Daemon.inside, LoopPc.holds, Mutex.unlock]
  · rename_i hpc
    cases h
    refine ⟨run, nofun, ?_, intact, nofun, nofun, set, nofun⟩
    grind [Daemon.inside, LoopPc.holds]
  · cases h

theorem daemonInv_keeps : (daemon τ₀).Keeps (fun _ _ => True) (DaemonInv τ₀) := by
  intro s a s' hi _ h
  cases a with
  | sigusr1 t =>
    simp only [daemon, Daemon.step] at h
    split at h
    · rename_i ht
      cases h
      exact daemonInv_sigusr1 hi ht
    · cases h
  | handler t => exact daemonInv_handler hi h
  | loop =>
    simp only [daemon, Daemon.step] at h
    split at h
    · rename_i hh
      exact daemonInv_loop hi hh h
    · cases h
  | spurious =>
    simp only [daemon, Daemon.step] at h
    split at h
    · rename_i hpc
      cases h
      refine ⟨hi.run, nofun, ?_, hi.intact, nofun, nofun, hi.set, nofun⟩
      have := hi.mutex
      grind [Daemon.inside, LoopPc.holds]
    · cases h

/-- A step leaves no handler of `τ₀` to wait for its own mutex exactly when there was none before it
and the signal does not come apart. -/
theorem free_iff (hi : DaemonInv τ₀ s) {a : Signal τ} (h : (daemon τ₀).step a s = some s') :
    Free τ₀ s' ↔ Free τ₀ s ∧ Apart τ₀ s a := by
  have honce := hi.once
  cases a with
  | sigusr1 t =>
    simp only [daemon, Daemon.step] at h
    split at h
    · cases h
      grind [Free, Apart]
    · cases h
  | handler t =>
    have hap : Apart τ₀ s (.handler t) := nofun
    rw [and_iff_left hap]
    simp only [daemon, Daemon.step, Daemon.handlerStep] at h
    split at h
    · cases h
    · cases h
      grind [Free]
    · obtain ⟨m, hm, rfl⟩ := Option.map_eq_some_iff.mp h
      have hnone := not_inside_of_free hi (lock_eq hi hm).1 τ₀
      grind [Free, Daemon.inside]
    · rename_i ht
      cases h
      -- The handler holds the mutex, so `core_loop` does not.
      have hout : s.pc.holds = false := by
        by_contra hpc
        have h₁ := (hi.mutex τ₀).mpr (.inl ⟨rfl, by simpa using hpc⟩)
        have h₂ := (hi.mutex t).mpr (.inr (by rw [ht]; rfl))
        grind [HandlerPc.holds]
      grind [Free]
    · cases h
      grind [Free, HandlerPc.holds, LoopPc.holds]
    · cases h
      grind [Free, HandlerPc.holds]
  | loop =>
    have hap : Apart τ₀ s .loop := nofun
    rw [and_iff_left hap]
    simp only [daemon, Daemon.step] at h
    split at h
    · rename_i hh
      have hsame : s'.handler = s.handler := (loopStep_keeps h).1
      refine iff_of_true (fun _ e he => ?_) (fun _ e he => ?_)
      · rw [hsame, hh] at he
        cases he
      · rw [hh] at he
        cases he
    · cases h
  | spurious =>
    have hap : Apart τ₀ s .spurious := nofun
    rw [and_iff_left hap]
    simp only [daemon, Daemon.step] at h
    split at h
    · cases h
      grind [Free, LoopPc.holds]
    · cases h

/-! ## Progress -/

/-- A step of the code, without a new signal and without luck. -/
def Onward (a : Signal τ) : Prop := a = .loop ∨ ∃ t, a = .handler t

/-- Where a handler of `τ₀` waits for the mutex of `τ₀`, `core_loop` is at its end. -/
theorem not_serves {A : Signal τ → Prop} (hi : DaemonInv τ₀ s) (hf : ¬ Free τ₀ s) :
    ¬ (daemon τ₀).Reaches A (fun t => t.pc = .serve) s := by
  refine Machine.not_reaches (I := fun t => DaemonInv τ₀ t ∧ ¬ Free τ₀ t) ?_ ?_ ⟨hi, hf⟩
  · intro t a t' ⟨ht, hft⟩ _ h
    exact ⟨daemonInv_keeps t a t' ht trivial h, fun hft' => hft ((free_iff ht h).mp hft').1⟩
  · rintro t ⟨-, hft⟩ hpc
    exact hft fun hh => by rw [hpc] at hh; cases hh

/-- How many steps `core_loop` is away from `unix_sock_ctl_run`, when nobody hinders it. -/
def LoopPc.rank : LoopPc → Nat
  | .serve => 0
  | .unlock => 1
  | .check => 2
  | .wait => 3
  | .relock | .lock => 4
  | _ => 5

/-- `core_loop` alone, with the mutex free or its own. -/
theorem serves_alone (hi : DaemonInv τ₀ s) (hc : s.ctlRun = true) (hh : s.handler τ₀ = none)
    (hpc : s.pc ≠ .sleep) (hm : s.mutex = .free ∨ s.pc.holds = true) :
    (daemon τ₀).Reaches Onward (fun t => t.pc = .serve) s := by
  refine Machine.Reaches.of_variant (I := fun t => DaemonInv τ₀ t ∧ t.ctlRun = true ∧
    t.handler τ₀ = none ∧ t.pc ≠ .sleep ∧ (t.mutex = .free ∨ t.pc.holds = true))
    (fun t => t.pc.rank) ?_ ⟨hi, hc, hh, hpc, hm⟩
  rintro s ⟨hi, hc, hh, hpc, hm⟩ hq
  suffices h : ∃ t, s.loopStep τ₀ = some t ∧ t.ctlRun = true ∧ t.pc ≠ .sleep ∧
      (t.mutex = .free ∨ t.pc.holds = true) ∧ t.pc.rank < s.pc.rank by
    obtain ⟨t, ht, hc', hpc', hm', hlt⟩ := h
    have hstep : (daemon τ₀).step .loop s = some t := (if_pos hh).trans ht
    exact ⟨.loop, t, .inl rfl, hstep, ⟨daemonInv_keeps s _ t hi trivial hstep, hc',
      (congrFun (loopStep_keeps ht).1 τ₀).trans hh, hpc', hm'⟩, hlt⟩
  have hfree : s.pc.holds = false → s.mutex = .free := fun h =>
    hm.resolve_right (by rw [h]; nofun)
  cases h : s.pc with
  | test =>
    refine ⟨{ s with pc := .lock }, ?_, hc, nofun, .inl (hfree (by rw [h]; rfl)), Nat.lt_succ_self _⟩
    simp only [Daemon.loopStep, h, if_pos hi.run]
  | lock =>
    refine ⟨{ s with mutex := .held τ₀, pc := .wait }, ?_, hc, nofun, .inr rfl, Nat.lt_succ_self _⟩
    simp only [Daemon.loopStep, h, hfree (by rw [h]; rfl), Mutex.lock, Option.map_some]
  | wait =>
    refine ⟨{ s with pc := .check }, ?_, hc, nofun, .inr rfl, Nat.lt_succ_self _⟩
    simp only [Daemon.loopStep, h, hc, Bool.true_eq_false, false_and, ↓reduceIte]
  | sleep => exact absurd h hpc
  | relock =>
    refine ⟨{ s with mutex := .held τ₀, pc := .wait }, ?_, hc, nofun, .inr rfl, Nat.lt_succ_self _⟩
    simp only [Daemon.loopStep, h, hfree (by rw [h]; rfl), Mutex.lock, Option.map_some]
  | check =>
    refine ⟨{ s with pc := .unlock }, ?_, hc, nofun, .inr rfl, Nat.lt_succ_self _⟩
    simp only [Daemon.loopStep, h, if_pos hi.run]
  | unlock =>
    have hheld : s.mutex = .held τ₀ := (hi.mutex τ₀).mpr (.inl ⟨rfl, by rw [h]; rfl⟩)
    refine ⟨{ s with mutex := s.mutex.unlock, pc := .serve }, ?_, hc, nofun, .inl ?_, Nat.lt_succ_self _⟩
    · simp only [Daemon.loopStep, h]
    · rw [hheld]
      rfl
  | serve => exact absurd h hq
  | out => exact absurd h hi.running

/-- How many steps a handler is away from its return. -/
def rankHandler : Option HandlerPc → Nat
  | none => 0
  | some .unlock => 1
  | some .signal => 2
  | some .set => 3
  | some .lock => 4
  | some .test => 5

/-- A handler alone, with the mutex free or its own: it returns, `g_ctl_run` is set and the mutex is
free. -/
theorem handler_returns (hi : DaemonInv τ₀ s) (hf : Free τ₀ s) {t : τ} (ht : s.handler t ≠ none)
    (hm : s.mutex = .free ∨ (s.handler t).any HandlerPc.holds = true) :
    (daemon τ₀).Reaches Onward (fun u => u.handler t = none ∧ DaemonInv τ₀ u ∧ Free τ₀ u ∧
      u.mutex = .free ∧ u.ctlRun = true) s := by
  have hrun : (daemon τ₀).Reaches Onward (fun u => u.handler t = none ∧ DaemonInv τ₀ u ∧
      Free τ₀ u ∧ (u.mutex = .free ∨ (u.handler t).any HandlerPc.holds = true) ∧
      (u.handler t = none → u.ctlRun = true)) s := by
    refine Machine.Reaches.of_variant (I := fun u => DaemonInv τ₀ u ∧ Free τ₀ u ∧
      (u.mutex = .free ∨ (u.handler t).any HandlerPc.holds = true) ∧
      (u.handler t = none → u.ctlRun = true)) (fun u => rankHandler (u.handler t)) ?_
      ⟨hi, hf, hm, fun h => absurd h ht⟩
    rintro s ⟨hi, hf, hm, hc⟩ hq
    suffices h : ∃ u, s.handlerStep t = some u ∧
        (u.mutex = .free ∨ (u.handler t).any HandlerPc.holds = true) ∧
        (u.handler t = none → u.ctlRun = true) ∧
        rankHandler (u.handler t) < rankHandler (s.handler t) by
      obtain ⟨u, hu, hm', hc', hlt⟩ := h
      have hstep : (daemon τ₀).step (.handler t) s = some u := hu
      exact ⟨.handler t, u, .inr ⟨t, rfl⟩, hstep, ⟨daemonInv_keeps s _ u hi trivial hstep,
        (free_iff hi hstep).mpr ⟨hf, nofun⟩, hm', hc'⟩, hlt⟩
    have hfree : (s.handler t).any HandlerPc.holds = false → s.mutex = .free := fun h =>
      hm.resolve_right (by rw [h]; nofun)
    unfold Daemon.handlerStep
    cases h : s.handler t with
    | none => exact absurd ⟨h, hi, hf, hm, hc⟩ hq
    | some pc =>
      cases pc with
      | test =>
        have hmf := hfree (by rw [h]; rfl)
        refine ⟨_, rfl, .inl hmf, fun e => ?_, ?_⟩
        · by_contra hcr
          simp [hcr] at e
        · simp only [Function.update_self]
          split <;> decide
      | lock =>
        simp only [hfree (by rw [h]; rfl), Mutex.lock, Option.map_some]
        exact ⟨_, rfl, .inr (by simp [HandlerPc.holds]), fun e => by simp at e,
          by simp [rankHandler]⟩
      | set =>
        exact ⟨_, rfl, .inr (by simp [HandlerPc.holds]), fun e => by simp at e,
          by simp [rankHandler]⟩
      | signal =>
        exact ⟨_, rfl, .inr (by simp [HandlerPc.holds]), fun e => by simp at e,
          by simp [rankHandler]⟩
      | unlock =>
        have hheld : s.mutex = .held t := (hi.mutex t).mpr (.inr (by rw [h]; rfl))
        refine ⟨_, rfl, .inl ?_, fun _ => hi.set t (.inr h), by simp [rankHandler]⟩
        rw [hheld]
        rfl
  refine hrun.trans fun u ⟨hu, hi, hf, hm, hc⟩ => .here ⟨hu, hi, hf, ?_, hc hu⟩
  exact hm.resolve_right (by rw [hu]; nofun)

/-- With the mutex free and `g_ctl_run` set. -/
theorem serves_of_free (hi : DaemonInv τ₀ s) (hf : Free τ₀ s) (hm : s.mutex = .free)
    (hc : s.ctlRun = true) : (daemon τ₀).Reaches Onward (fun t => t.pc = .serve) s := by
  have awake : ∀ {u : Daemon τ}, DaemonInv τ₀ u → u.mutex = .free → u.ctlRun = true →
      u.pc ≠ .sleep := fun hi hm hc hpc => by
    obtain ⟨t, ht⟩ := hi.asleep hpc hc
    exact not_inside_of_free hi hm t (.inr (by rw [ht]; rfl))
  by_cases hh : s.handler τ₀ = none
  · exact serves_alone hi hc hh (awake hi hm hc) (.inl hm)
  · exact (handler_returns hi hf hh (.inl hm)).trans fun u ⟨hu, hi, _, hm, hc⟩ =>
      serves_alone hi hc hu (awake hi hm hc) (.inl hm)

/-- **A signal is not lost.** While no handler of `τ₀` waits for its own mutex, `core_loop` comes to
`unix_sock_ctl_run` after a signal, through steps of the code alone. -/
theorem serves_of_asked (hi : DaemonInv τ₀ s) (hf : Free τ₀ s) (ha : Asked s) :
    (daemon τ₀).Reaches Onward (fun t => t.pc = .serve) s := by
  -- With the mutex free: a handler that is on its way returns first.
  have free : ∀ {u : Daemon τ}, DaemonInv τ₀ u → Free τ₀ u → u.mutex = .free → Asked u →
      (daemon τ₀).Reaches Onward (fun t => t.pc = .serve) u := fun {u} hi hf hm ha => by
    rcases ha with hc | ⟨t, ht⟩
    · exact serves_of_free hi hf hm hc
    · exact (handler_returns hi hf ht (.inl hm)).trans fun v ⟨_, hi, hf, hm, hc⟩ =>
        serves_of_free hi hf hm hc
  -- With the mutex in the hands of `core_loop`, whose thread has no handler on its way.
  have own : ∀ {u : Daemon τ}, DaemonInv τ₀ u → Free τ₀ u → u.pc.holds = true →
      u.handler τ₀ = none → Asked u →
      (daemon τ₀).Reaches Onward (fun t => t.pc = .serve) u := fun {u} hi hf hpc hh ha => by
    by_cases hc : u.ctlRun = true
    · exact serves_alone hi hc hh (by rintro e; rw [e] at hpc; cases hpc) (.inr hpc)
    · have hwait : u.pc = .wait := by
        cases e : u.pc with
        | wait => rfl
        | check => exact absurd (hi.past (.inl e)) hc
        | unlock => exact absurd (hi.past (.inr e)) hc
        | _ => rw [e] at hpc; cases hpc
      have hheld : u.mutex = .held τ₀ := (hi.mutex τ₀).mpr (.inl ⟨rfl, hpc⟩)
      have hstep : (daemon τ₀).step .loop u =
          some { u with mutex := u.mutex.unlock, pc := .sleep } := by
        refine (if_pos hh).trans ?_
        simp only [Daemon.loopStep, hwait]
        exact if_pos ⟨by simpa using hc, hi.run⟩
      refine .step (.inl rfl) hstep (free (daemonInv_keeps u _ _ hi trivial hstep)
        ((free_iff hi hstep).mpr ⟨hf, nofun⟩) ?_ ha)
      rw [hheld]
      rfl
  rcases mutex_free hi with hm | ⟨t, hm⟩
  · exact free hi hf hm ha
  · rcases (hi.mutex t).mp hm with ⟨rfl, hpc⟩ | hh
    · cases hh : s.handler t with
      | none => exact own hi hf hpc hh ha
      | some e =>
        obtain ⟨rfl, hc⟩ := hf hpc e hh
        have hstep : (daemon t).step (.handler t) s =
            some { s with handler := update s.handler t none } := by
          simp only [daemon, Daemon.step, Daemon.handlerStep, hh, if_pos hc]
        exact .step (.inr ⟨t, rfl⟩) hstep (own (daemonInv_keeps s _ _ hi trivial hstep)
          ((free_iff hi hstep).mpr ⟨hf, nofun⟩) hpc (Function.update_self ..) (.inl hc))
    · have hne : s.handler t ≠ none := by
        intro e
        rw [e] at hh
        cases hh
      exact (handler_returns hi hf hne (.inr hh)).trans fun u ⟨_, hi, hf, hm, hc⟩ =>
        serves_of_free hi hf hm hc

/-- A signal that was delivered is not taken back. -/
theorem asked_keeps : (daemon τ₀).Keeps (fun _ _ => True) (fun s => DaemonInv τ₀ s ∧ Asked s) := by
  rintro s a s' ⟨hi, ha⟩ - h
  refine ⟨daemonInv_keeps s a s' hi trivial h, ?_⟩
  have hset := hi.set
  cases a with
  | sigusr1 t =>
    simp only [daemon, Daemon.step] at h
    split at h
    · cases h
      exact .inr ⟨t, by simp⟩
    · cases h
  | handler t =>
    simp only [daemon, Daemon.step, Daemon.handlerStep] at h
    split at h
    · cases h
    · cases h
      by_cases hc : s.ctlRun = true
      · exact .inl hc
      · exact .inr ⟨t, by simp [hc]⟩
    · obtain ⟨m, -, rfl⟩ := Option.map_eq_some_iff.mp h
      exact .inr ⟨t, by simp⟩
    · cases h
      exact .inl rfl
    · cases h
      exact .inr ⟨t, by simp⟩
    · rename_i ht
      cases h
      exact .inl (hset t (.inr ht))
  | loop =>
    simp only [daemon, Daemon.step] at h
    split at h
    · obtain ⟨hhandler, hctl⟩ := loopStep_keeps h
      rcases ha with hc | ⟨t, ht⟩
      · exact .inl (hctl.trans hc)
      · exact .inr ⟨t, by rw [hhandler]; exact ht⟩
    · cases h
  | spurious =>
    simp only [daemon, Daemon.step] at h
    split at h
    · cases h
      exact ha
    · cases h

/-- After a run in which a signal was delivered. -/
theorem asked_of_mem {as : List (Signal τ)} (hi : DaemonInv τ₀ s)
    (hr : (daemon τ₀).run as s = some s') (h : ∃ t, Signal.sigusr1 t ∈ as) : Asked s' := by
  induction as generalizing s with
  | nil => obtain ⟨t, ht⟩ := h; cases ht
  | cons a as ih =>
    obtain ⟨u, hu, hru⟩ := Machine.run_cons_some.mp hr
    have hiu := daemonInv_keeps s a u hi trivial hu
    obtain ⟨t, ht⟩ := h
    rcases List.mem_cons.mp ht with rfl | ht
    · have hau : Asked u := by
        simp only [daemon, Daemon.step] at hu
        split at hu
        · cases hu
          exact .inr ⟨t, by simp⟩
        · cases hu
      exact (asked_keeps.run_all ⟨hiu, hau⟩ hru).2
    · exact ih hiu hru ⟨t, ht⟩

omit [DecidableEq τ] in
theorem free_start : Free τ₀ Daemon.start := nofun

/-- **Exactly when the daemon's socket can still open.** For any number of threads and every order of
the deliveries of `SIGUSR1`, the steps of the handlers, those of `core_loop` and the spurious ends of
its wait: after a run with a delivery, steps of the code alone can bring `core_loop` to
`unix_sock_ctl_run` if and only if no delivery came to `core_loop`'s own thread while that held
`g_mutex` and `g_ctl_run` was 0. -/
theorem signal_served_iff (τ₀ : τ) (as : List (Signal τ)) (s : Daemon τ)
    (hr : (daemon τ₀).run as .start = some s) (hsig : ∃ t, Signal.sigusr1 t ∈ as) :
    (daemon τ₀).Reaches Onward (fun t => t.pc = .serve) s ↔
      (daemon τ₀).Meets (Apart τ₀) as .start := by
  have hi : DaemonInv τ₀ s := daemonInv_keeps.run_all daemonInv_start hr
  have hfree : Free τ₀ s ↔ Free τ₀ Daemon.start ∧ (daemon τ₀).Meets (Apart τ₀) as .start :=
    Machine.iff_meets daemonInv_keeps (fun u a v hu h => free_iff hu h) daemonInv_start hr
  rw [and_iff_right free_start] at hfree
  rw [← hfree]
  constructor
  · intro h
    by_contra hf
    exact not_serves hi hf h
  · exact fun hf => serves_of_asked hi hf (asked_of_mem daemonInv_start hr hsig)

/-- A signal to the thread of `core_loop` inside its critical section, and one to another thread. -/
theorem signal_served_iff_own :
    ¬ (∃ s, (daemon (0 : Fin 2)).run [.loop, .loop, .sigusr1 0, .handler 0] .start = some s ∧
      (daemon (0 : Fin 2)).Reaches Onward (fun t => t.pc = .serve) s) ∧
    ∃ s, (daemon (0 : Fin 2)).run [.loop, .loop, .sigusr1 1, .handler 1] .start = some s ∧
      (daemon (0 : Fin 2)).Reaches Onward (fun t => t.pc = .serve) s := by
  have hrun : ∃ s,
      (daemon (0 : Fin 2)).run [.loop, .loop, .sigusr1 1, .handler 1] .start = some s :=
    ⟨_, rfl⟩
  constructor
  · rintro ⟨s, hs, h⟩
    have hm := (signal_served_iff 0 _ s hs ⟨0, by simp⟩).mp h
    have hap := (hm.2 _ rfl).2 _ rfl
    exact absurd (hap.1 rfl rfl) (by decide)
  · obtain ⟨s, hs⟩ := hrun
    refine ⟨s, hs, (signal_served_iff 0 _ s hs ⟨1, by simp⟩).mpr ?_⟩
    refine Machine.Meets.of_mem (fun u a ha => ?_) _
    intro e
    subst e
    simp at ha

end Control
end CoreCDTL
