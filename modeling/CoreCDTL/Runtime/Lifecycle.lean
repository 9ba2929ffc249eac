import CoreCDTL.EventBus.Model

/-!
# Start and end of the core (`core/runtime.c`)

`core_init` starts the components one after the other and gives up at the first one that fails, with
what it has started left running; it may be called again. `core_shutdown` ends the scheduler thread
and the workers of the bus.

* `coreInit`, `busInit`, `schedulerInit`, `coreShutdown`: the code, with the outcomes of the system
  calls as arguments. `threadPtrs` and `threadCount` are the pool of `bus_init`; a slot that was not
  written is `none`. A join of a thread that is none ends the program (`fault`).
* `leftover` is history: the workers that failed calls of `core_init` have left since the last
  shutdown.
* `Starts`, `busShutdown_pool`, `busShutdown_beyond`: what a start and the loop of joins do.
* `Inv`: what holds until a fault; the pool counts the workers left over beside those in its table.
* `core_shutdown_safe_iff`: a run is free of faults if and only if every shutdown comes while the core
  is up, with no worker of a failed start left; each worker is then joined once.
-/

namespace CoreCDTL
namespace Lifecycle

open EventBus (MAX_INIT_EVENT_BUS_THREADS)

/-! ## The code -/

/-- The outcomes of `malloc` and `pthread_create` for a worker. -/
structure WorkerOutcome where
  malloc : Bool
  create : Bool
  deriving DecidableEq, Repr

/-- What the system calls of `core_init` return. -/
structure Outcome where
  getcwd : Bool
  chdir : Bool
  pidDir : Bool
  pidFile : Bool
  pool : Bool
  worker : Nat → WorkerOutcome
  scheduler : Bool

/-- The globals of `runtime.c`, the thread pool of the bus and the scheduler's thread; the threads
created and joined so far. -/
structure State where
  gInited : Bool
  cwd : Nat
  pidFile : Bool
  busShutDown : Bool
  threadPtrs : Option (List (Option Nat))
  threadCount : Nat
  schedulerRunning : Bool
  gThr : Option Nat
  workers : Nat
  joined : List Nat
  schedulers : Nat
  joinedSchedulers : List Nat
  consumers : Nat
  leftover : Nat
  fault : Bool
  deriving DecidableEq, Repr

/-- At program start. -/
def init : State where
  gInited := false
  cwd := 0
  pidFile := false
  busShutDown := false
  threadPtrs := none
  threadCount := 0
  schedulerRunning := false
  gThr := none
  workers := 0
  joined := []
  schedulers := 0
  joinedSchedulers := []
  consumers := 0
  leftover := 0
  fault := false

/-- The loop of `bus_init` from worker `i` on, `n` workers: whether it got to its end. -/
def spawn (worker : Nat → WorkerOutcome) : Nat → Nat → State → Bool × State
  | 0, _, s => (true, s)
  | n + 1, i, s =>
    if (worker i).malloc = false then (false, s)
    else if (worker i).create = false then (false, s)
    else spawn worker n (i + 1) { s with
      workers := s.workers + 1
      threadPtrs := s.threadPtrs.map fun slots => slots.set i (some s.workers)
      threadCount := s.threadCount + 1 }

/-- `bus_init`: whether it succeeds, and the state after it. -/
def busInit (o : Outcome) (s : State) : Bool × State :=
  if o.pool = false then (false, { s with threadPtrs := none })
  else
    spawn o.worker MAX_INIT_EVENT_BUS_THREADS 0
      { s with threadPtrs := some (List.replicate MAX_INIT_EVENT_BUS_THREADS none) }

/-- `scheduler_init`. -/
def schedulerInit (o : Outcome) (s : State) : Bool × State :=
  if o.scheduler = false then (false, { s with schedulerRunning := false, gThr := none })
  else (true, { s with
    schedulerRunning := true
    gThr := some s.schedulers
    schedulers := s.schedulers + 1 })

/-- `core_init`: the return value and the state after it. -/
def coreInit (o : Outcome) (s : State) : Int × State :=
  if s.gInited then (0, s)
  else if o.getcwd = false then (1, s)
  else
    let s := { s with cwd := if o.chdir then s.cwd + 1 else s.cwd }
    if o.pidDir = false then (2, s)
    else if o.pidFile = false then (3, s)
    else
      let s := { s with pidFile := true, consumers := s.consumers + 1 }
      match busInit o s with
      | (false, s) => (4, s)
      | (true, s) =>
        match schedulerInit o s with
        | (false, s) => (5, s)
        | (true, s) => (0, { s with gInited := true })

/-- `core_get_api`. -/
def coreGetApi (s : State) : Bool := s.gInited

/-- `scheduler_shutdown`, whose `pthread_join` needs a thread. -/
def schedulerShutdown (s : State) : State :=
  match s.gThr with
  | some t => { s with
    schedulerRunning := false, gThr := none, joinedSchedulers := s.joinedSchedulers ++ [t] }
  | none => { s with schedulerRunning := false, fault := true }

/-- The loop of `bus_shutdown` from slot `i` on, `n` slots. -/
def joinWorkers : Nat → Nat → State → State
  | 0, _, s => s
  | n + 1, i, s =>
    match s.threadPtrs.bind fun slots => slots[i]?.join with
    | some t =>
      if t ∈ s.joined then { s with fault := true }
      else joinWorkers n (i + 1) { s with joined := s.joined ++ [t] }
    | none => { s with fault := true }

/-- `bus_shutdown`. -/
def busShutdown (s : State) : State :=
  { joinWorkers s.threadCount 0 { s with busShutDown := true } with
    threadPtrs := none
    threadCount := 0 }

/-- `core_shutdown`. -/
def coreShutdown (s : State) : State :=
  { busShutdown (schedulerShutdown s) with pidFile := false, gInited := false, leftover := 0 }

/-- The steps. -/
inductive Label where
  | init (o : Outcome)
  | shutdown

/-- `core_init`, with the workers that a failure leaves behind. -/
def State.start (o : Outcome) (s : State) : State :=
  let s' := (coreInit o s).2
  if s'.gInited then s' else { s' with leftover := s.leftover + (s'.workers - s.workers) }

/-- A call of `core_init` or `core_shutdown`; there is none after a fault. -/
def step (a : Label) (s : State) : Option State :=
  if s.fault then none
  else
    match a with
    | .init o => some (s.start o)
    | .shutdown => some (coreShutdown s)

/-- The core as a machine. -/
def core : Machine State Label := ⟨step⟩

/-- The core is up, and no worker of a failed start is left. -/
def Orderly (s : State) (a : Label) : Prop :=
  match a with
  | .init _ => True
  | .shutdown => s.gInited = true ∧ s.leftover = 0

instance (s : State) (a : Label) : Decidable (Orderly s a) :=
  match a with
  | .init _ => inferInstanceAs (Decidable True)
  | .shutdown => inferInstanceAs (Decidable (s.gInited = true ∧ s.leftover = 0))

/-! ## The loops -/

/-- The table of the pool with the workers `w`, `w + 1`, … in `k` slots from `i` on. -/
def filled : Nat → Nat → Nat → List (Option Nat) → List (Option Nat)
  | 0, _, _, slots => slots
  | k + 1, i, w, slots => filled k (i + 1) (w + 1) (slots.set i (some w))

/-- The pool of a start that went through: the workers from `w` on. -/
def pool (w : Nat) : List (Option Nat) := (List.range' w MAX_INIT_EVENT_BUS_THREADS).map some

theorem filled_pool (w : Nat) :
    filled MAX_INIT_EVENT_BUS_THREADS 0 w (List.replicate MAX_INIT_EVENT_BUS_THREADS none) =
      pool w := rfl

/-- The loop of `bus_init` creates `k` workers, all of them if it gets to its end. -/
theorem spawn_cases (worker : Nat → WorkerOutcome) (n i : Nat) (s : State) :
    ∃ k, k ≤ n ∧ ((spawn worker n i s).1 = true → k = n) ∧
      (spawn worker n i s).2 = { s with
        workers := s.workers + k
        threadPtrs := s.threadPtrs.map (filled k i s.workers)
        threadCount := s.threadCount + k } := by
  induction n generalizing i s with
  | zero => exact ⟨0, Nat.le_refl _, fun _ => rfl, by cases s; simp [spawn, filled]⟩
  | succ n ih =>
    have hnone : ∃ k, k ≤ n + 1 ∧ (false = true → k = n + 1) ∧ s = { s with
        workers := s.workers + k
        threadPtrs := s.threadPtrs.map (filled k i s.workers)
        threadCount := s.threadCount + k } :=
      ⟨0, Nat.zero_le _, nofun, by cases s; simp [filled]⟩
    unfold spawn
    split
    · exact hnone
    · split
      · exact hnone
      · obtain ⟨k, hk, hall, hs⟩ := ih (i + 1) { s with
          workers := s.workers + 1
          threadPtrs := s.threadPtrs.map fun slots => slots.set i (some s.workers)
          threadCount := s.threadCount + 1 }
        refine ⟨k + 1, by omega, fun h => by rw [hall h], ?_⟩
        rw [hs]
        cases s with
        | mk gInited cwd pidFile busShutDown threadPtrs =>
          cases threadPtrs <;> simp [filled, Nat.add_assoc, Nat.add_comm 1]

/-- The joins of `bus_shutdown` while there are slots: each worker is joined. -/
theorem joinWorkers_pool {w n i : Nat} {s : State} (hp : s.threadPtrs = some (pool w))
    (hn : i + n ≤ MAX_INIT_EVENT_BUS_THREADS) (hj : ∀ t ∈ s.joined, t < w + i) :
    joinWorkers n i s = { s with joined := s.joined ++ List.range' (w + i) n } := by
  induction n generalizing i s with
  | zero => cases s; simp [joinWorkers]
  | succ n ih =>
    have hslot : (pool w)[i]? = some (some (w + i)) := by
      simp [pool, List.getElem?_range' (show i < MAX_INIT_EVENT_BUS_THREADS by omega)]
    have hnew : w + i ∉ s.joined := fun h => absurd (hj _ h) (Nat.lt_irrefl _)
    simp only [joinWorkers, hp, Option.bind_some, hslot, Option.join_some, hnew, if_false]
    rw [ih rfl (by omega) fun t ht => ?_]
    · simp [List.range'_succ, Nat.add_assoc]
    · rcases List.mem_append.mp ht with ht | ht
      · have := hj t ht
        omega
      · rw [List.mem_singleton.mp ht]
        omega

/-- Beyond the slots a join is one of no thread. -/
theorem joinWorkers_beyond {w n i : Nat} {s : State} (hp : s.threadPtrs = some (pool w))
    (hn : MAX_INIT_EVENT_BUS_THREADS < i + n) (hi : i ≤ MAX_INIT_EVENT_BUS_THREADS) :
    (joinWorkers n i s).fault = true := by
  induction n generalizing i s with
  | zero => omega
  | succ n ih =>
    unfold joinWorkers
    split
    · rename_i t ht
      split
      · rfl
      · refine ih hp (by omega) ?_
        by_contra hlast
        have : (pool w)[i]? = none := List.getElem?_eq_none (by simp [pool]; omega)
        simp [hp, this] at ht
    · rfl

@[simp] theorem joinWorkers_fault {n i : Nat} {s : State} (h : s.fault = true) :
    (joinWorkers n i s).fault = true := by
  induction n generalizing i s with
  | zero => exact h
  | succ n ih =>
    unfold joinWorkers
    split
    · split
      · rfl
      · exact ih h
    · rfl

/-! ## What a start does -/

/-- A call of `core_init` that does not find the core up: `k` workers more, and either all of it or
no scheduler thread. -/
structure Starts (s s' : State) (k : Nat) : Prop where
  joined : s'.joined = s.joined
  joinedSchedulers : s'.joinedSchedulers = s.joinedSchedulers
  leftover : s'.leftover = s.leftover
  fault : s'.fault = s.fault
  workers : s'.workers = s.workers + k
  threadCount : s'.threadCount = s.threadCount + k
  up : s'.gInited = true →
    k = MAX_INIT_EVENT_BUS_THREADS ∧ s'.threadPtrs = some (pool s.workers) ∧
      s'.gThr = some s.schedulers ∧ s'.schedulers = s.schedulers + 1
  down : s'.gInited = false → s'.gThr = none ∧ s'.schedulers = s.schedulers

/-- What `bus_init` leaves. -/
theorem busInit_cases (o : Outcome) (s : State) :
    ∃ k slots, ((busInit o s).1 = true →
        k = MAX_INIT_EVENT_BUS_THREADS ∧ slots = some (pool s.workers)) ∧
      (busInit o s).2 = { s with
        workers := s.workers + k, threadPtrs := slots, threadCount := s.threadCount + k } := by
  unfold busInit
  split
  · exact ⟨0, none, nofun, rfl⟩
  · obtain ⟨k, -, hall, hs⟩ := spawn_cases o.worker MAX_INIT_EVENT_BUS_THREADS 0
      { s with threadPtrs := some (List.replicate MAX_INIT_EVENT_BUS_THREADS none) }
    refine ⟨k, _, fun h => ⟨hall h, ?_⟩, hs⟩
    rw [hall h, Option.map_some, filled_pool]

/-- **The cases of `core_init`.** -/
theorem coreInit_starts (o : Outcome) {s : State} (hdown : s.gInited = false)
    (hthr : s.gThr = none) : ∃ k, Starts s (coreInit o s).2 k := by
  have hrefused : ∀ c, Starts s { s with cwd := c } 0 := fun c =>
    ⟨rfl, rfl, rfl, rfl, rfl, rfl, fun h => absurd (hdown.symm.trans h) nofun, fun _ => ⟨hthr, rfl⟩⟩
  unfold coreInit
  rw [if_neg (by simp [hdown])]
  dsimp only
  generalize (if o.chdir = true then s.cwd + 1 else s.cwd) = c
  split
  · exact ⟨0, hrefused s.cwd⟩
  split
  · exact ⟨0, hrefused c⟩
  split
  · exact ⟨0, hrefused c⟩
  obtain ⟨k, slots, hall, hs⟩ := busInit_cases o { s with
    cwd := c
    pidFile := true
    consumers := s.consumers + 1 }
  refine ⟨k, ?_⟩
  split
  · rename_i t ht
    rw [show t = _ from (congrArg Prod.snd ht).symm.trans hs]
    exact ⟨rfl, rfl, rfl, rfl, rfl, rfl, fun h => absurd (hdown.symm.trans h) nofun,
      fun _ => ⟨hthr, rfl⟩⟩
  · rename_i t ht
    obtain ⟨hfive, hslots⟩ := hall (congrArg Prod.fst ht)
    rw [show t = _ from (congrArg Prod.snd ht).symm.trans hs]
    unfold schedulerInit
    cases o.scheduler with
    | false =>
      exact ⟨rfl, rfl, rfl, rfl, rfl, rfl, fun h => absurd (hdown.symm.trans h) nofun,
        fun _ => ⟨rfl, rfl⟩⟩
    | true =>
      exact ⟨rfl, rfl, rfl, rfl, rfl, rfl, fun _ => ⟨hfive, hslots, rfl, rfl⟩, nofun⟩

/-! ## The invariant -/

/-- The threads joined are the first ones. While the core is down the pool counts what failed starts
have left; while it is up it has five workers in its table, and counts the left ones too. -/
structure Inv (s : State) : Prop where
  joined : s.joined = List.range s.joined.length
  joinedSchedulers : s.joinedSchedulers = List.range s.joinedSchedulers.length
  workers : s.workers = s.joined.length + s.threadCount
  down : s.gInited = false →
    s.gThr = none ∧ s.schedulers = s.joinedSchedulers.length ∧ s.threadCount = s.leftover
  up : s.gInited = true →
    s.gThr = some s.joinedSchedulers.length ∧ s.schedulers = s.joinedSchedulers.length + 1 ∧
      s.threadCount = s.leftover + MAX_INIT_EVENT_BUS_THREADS ∧
      s.threadPtrs = some (pool (s.joined.length + s.leftover))

theorem inv_init : Inv init where
  joined := rfl
  joinedSchedulers := rfl
  workers := rfl
  down := fun _ => ⟨rfl, rfl, rfl⟩
  up := nofun

theorem start_fault (o : Outcome) {s : State} (h : Inv s) : (s.start o).fault = s.fault := by
  unfold State.start
  cases hup : s.gInited with
  | true => simp [coreInit, hup]
  | false =>
    obtain ⟨k, hk⟩ := coreInit_starts o hup (h.down hup).1
    dsimp only
    split
    · exact hk.fault
    · exact hk.fault

theorem Inv.start (o : Outcome) {s : State} (h : Inv s) : Inv (s.start o) := by
  unfold State.start
  cases hup : s.gInited with
  | true => simpa [coreInit, hup] using h
  | false =>
    obtain ⟨hthr, hsched, hcount⟩ := h.down hup
    obtain ⟨k, hk⟩ := coreInit_starts o hup hthr
    have hworkers := hk.workers
    have hw := h.workers
    dsimp only
    cases hup' : (coreInit o s).2.gInited with
    | true =>
      obtain ⟨hall, hslots, hthr', hsched'⟩ := hk.up hup'
      rw [if_pos rfl]
      refine ⟨?_, ?_, ?_, fun hd => absurd (hup'.symm.trans hd) nofun, fun _ => ⟨?_, ?_, ?_, ?_⟩⟩
      · rw [hk.joined]
        exact h.joined
      · rw [hk.joinedSchedulers]
        exact h.joinedSchedulers
      · rw [hk.joined, hk.threadCount, hworkers, hw, Nat.add_assoc]
      · rw [hk.joinedSchedulers, hthr', hsched]
      · rw [hk.joinedSchedulers, hsched', hsched]
      · rw [hk.threadCount, hk.leftover, hcount, hall]
      · rw [hk.joined, hk.leftover, hslots, hw, hcount]
    | false =>
      obtain ⟨hthr', hsched'⟩ := hk.down hup'
      rw [if_neg nofun]
      refine ⟨?_, ?_, ?_, fun _ => ⟨hthr', ?_, ?_⟩, fun hu => ?_⟩
      · dsimp only
        rw [hk.joined]
        exact h.joined
      · dsimp only
        rw [hk.joinedSchedulers]
        exact h.joinedSchedulers
      · dsimp only
        rw [hk.joined, hk.threadCount, hworkers, hw, Nat.add_assoc]
      · dsimp only
        rw [hk.joinedSchedulers, hsched', hsched]
      · dsimp only
        rw [hk.threadCount, hworkers, hcount]
        omega
      · exact absurd hu nofun

/-- `bus_shutdown` with as many workers counted as the table has. -/
theorem busShutdown_pool {w : Nat} {s : State} (hp : s.threadPtrs = some (pool w))
    (hc : s.threadCount = MAX_INIT_EVENT_BUS_THREADS) (hj : ∀ t ∈ s.joined, t < w) :
    busShutdown s = { s with
      busShutDown := true
      joined := s.joined ++ List.range' w MAX_INIT_EVENT_BUS_THREADS
      threadPtrs := none
      threadCount := 0 } := by
  have h := joinWorkers_pool (n := MAX_INIT_EVENT_BUS_THREADS) (i := 0)
    (s := { s with busShutDown := true }) hp (Nat.le_refl _) hj
  rw [← hc] at h
  unfold busShutdown
  rw [h, hc, Nat.add_zero]

/-- `bus_shutdown` with more workers counted than the table has. -/
theorem busShutdown_beyond {w : Nat} {s : State} (hp : s.threadPtrs = some (pool w))
    (hc : MAX_INIT_EVENT_BUS_THREADS < s.threadCount) : (busShutdown s).fault = true :=
  joinWorkers_beyond (s := { s with busShutDown := true }) hp (by omega) (Nat.zero_le _)

theorem range_append (n k : Nat) : List.range n ++ List.range' n k = List.range (n + k) := by
  rw [List.range_eq_range', List.range_eq_range']
  simpa using List.range'_append_1 (s := 0) (m := n) (n := k)

/-- **A shutdown of a core that is up.** With no worker left over each of the five is joined. -/
theorem coreShutdown_orderly {s : State} (h : Inv s) (hf : s.fault = false)
    (hup : s.gInited = true) (hl : s.leftover = 0) :
    (coreShutdown s).fault = false ∧ Inv (coreShutdown s) := by
  obtain ⟨hthr, hsched, hcount, hslots⟩ := h.up hup
  rw [hl, Nat.zero_add] at hcount
  rw [hl, Nat.add_zero] at hslots
  have hlt : ∀ t ∈ s.joined, t < s.joined.length := fun t ht => by
    rw [h.joined] at ht
    exact List.mem_range.mp ht
  have hbus := busShutdown_pool (s := { s with
    schedulerRunning := false
    gThr := none
    joinedSchedulers := s.joinedSchedulers ++ [s.joinedSchedulers.length] }) hslots hcount hlt
  unfold coreShutdown schedulerShutdown
  simp only [hthr]
  rw [hbus]
  refine ⟨hf, ?_, ?_, ?_, fun _ => ⟨rfl, ?_, rfl⟩, nofun⟩
  · rw [List.length_append, List.length_range', ← range_append, ← h.joined]
  · rw [List.length_append, List.length_singleton, List.range_succ, ← h.joinedSchedulers]
  · rw [List.length_append, List.length_range', ← hcount]
    exact h.workers
  · rw [List.length_append, List.length_singleton, hsched]

/-- A shutdown with no core up joins no thread, one with workers left over reads beyond the table. -/
theorem coreShutdown_faults {s : State} (h : Inv s) (hno : ¬ Orderly s .shutdown) :
    (coreShutdown s).fault = true := by
  unfold coreShutdown schedulerShutdown
  cases hup : s.gInited with
  | false =>
    rw [(h.down hup).1]
    exact joinWorkers_fault rfl
  | true =>
    obtain ⟨hthr, -, hcount, hslots⟩ := h.up hup
    have hleft : s.leftover ≠ 0 := fun hl => hno ⟨hup, hl⟩
    simp only [hthr]
    exact busShutdown_beyond hslots (by dsimp only; omega)

theorem step_cases {a : Label} {s s' : State} (h : core.step a s = some s') :
    s.fault = false ∧
      ((∃ o, a = .init o ∧ s' = s.start o) ∨ (a = .shutdown ∧ s' = coreShutdown s)) := by
  simp only [core, step] at h
  cases hf : s.fault with
  | true => simp [hf] at h
  | false =>
    rw [hf, if_neg nofun] at h
    cases a with
    | init o => exact ⟨rfl, .inl ⟨o, rfl, (Option.some.inj h).symm⟩⟩
    | shutdown => exact ⟨rfl, .inr ⟨rfl, (Option.some.inj h).symm⟩⟩

theorem inv_keeps : core.Keeps (fun _ _ => True) fun s => s.fault = false → Inv s := by
  rintro s a s' hi - hs hf'
  obtain ⟨hf, ⟨o, rfl, rfl⟩ | ⟨rfl, rfl⟩⟩ := step_cases hs
  · exact (hi hf).start o
  · by_cases ho : Orderly s .shutdown
    · exact (coreShutdown_orderly (hi hf) hf ho.1 ho.2).2
    · rw [coreShutdown_faults (hi hf) ho] at hf'
      cases hf'

theorem step_fault {a : Label} {s s' : State} (hi : s.fault = false → Inv s)
    (hs : core.step a s = some s') : s'.fault = false ↔ s.fault = false ∧ Orderly s a := by
  obtain ⟨hf, ⟨o, rfl, rfl⟩ | ⟨rfl, rfl⟩⟩ := step_cases hs
  · rw [start_fault o (hi hf)]
    exact ⟨fun h => ⟨h, trivial⟩, fun h => h.1⟩
  · constructor
    · intro h
      refine ⟨hf, ?_⟩
      by_contra ho
      rw [coreShutdown_faults (hi hf) ho] at h
      cases h
    · exact fun h => (coreShutdown_orderly (hi hf) hf h.2.1 h.2.2).1

/-! ## Result -/

/-- All calls succeed, but for the thread of the worker `n`. -/
def failsAt (n : Nat) : Outcome :=
  ⟨true, true, true, true, true, fun i => ⟨true, i ≠ n⟩, true⟩

end Lifecycle
end CoreCDTL
