import CoreCDTL.EventBus.Locks
import Mathlib.Algebra.BigOperators.Fin

/-!
# Deadlock on the event bus

`enqueue_task` waits for space in the queue while `bus_publish` holds `sub_mutex`. Only a worker makes
space, and a worker whose callback calls the bus needs that mutex.

* `Stuck`: a thread waits for space with `sub_mutex` held, and every other worker is blocked at the
  lock of `sub_mutex`. `Progress`: while a task is queued or a bus call is in progress, a thread has
  an enabled step.
* `Space`: the invariant. The holder of `sub_mutex` is in its critical section; a thread waits for
  space only while the queue is full; if workers sleep, there are not more tasks than workers on the
  way to the queue (no wake-up is lost).
* `Space.progress`: with the invariant, a state that is not stuck makes progress.
* `deadlockFree_iff`: no state of a run is stuck or without progress if and only if no step of the run
  blocks the last worker while, or so that, a thread waits for space.
-/

set_option linter.unusedSectionVars false

namespace CoreCDTL
namespace EventBus

variable {κ : Type} [DecidableEq κ]

/-! ## Deadlock -/

/-- The caller is at the lock of `sub_mutex`. -/
def AtSub (s : State κ) (t : Caller κ) : Prop := ∃ c, s.call t = some c ∧ c.atSub = true

/-- A thread waits for space in the queue, and the other workers wait for `sub_mutex`. -/
def Stuck (s : State κ) : Prop := ∃ t ∈ s.notFull, ∀ i, .worker i ≠ t → AtSub s (.worker i)

/-- A step of a thread in the bus or of a worker: not the start of a client's call, not a wake-up
without a signal, not a step of `bus_shutdown`. -/
def Label.Own (s : State κ) : Label κ → Prop
  | go _ _ | work _ _ | ret _ => True
  | crash t => s.call t ≠ none
  | _ => False

/-- While a task is queued or a bus call is in progress, some thread has an enabled step. -/
def Progress (s : State κ) : Prop :=
  (0 < s.queue.count ∨ ∃ t, s.call t ≠ none) → ∃ l, l.Own s ∧ (bus κ).Enabled l s

/-- No stuck state and no standstill before shutdown. -/
def DeadlockFree (s : State κ) : Prop := s.main = .idle → ¬ Stuck s ∧ Progress s

/-! ## The conditions on the steps -/

/-- The step is not a crash in the critical section of `sub_mutex`. -/
def Uncrashed (s : State κ) (l : Label κ) : Prop := ∀ u, ¬ Abandons s l u

/-- The step takes the callback of worker `i` to the lock of `sub_mutex`. -/
def Arrives (s : State κ) (l : Label κ) (i : Worker) : Prop :=
  (∃ c n, l = .call (.worker i) c ∧ s.isOutside (.worker i) = true ∧ c.first = some n ∧
    n.atSub = true) ∨
  ∃ o a cb e, l = .go (.worker i) o ∧ s.call (.worker i) = some (.subscribeAlloc a cb) ∧
    a.event = .obj e ∧ o.malloc = true ∧ o.strdup = true

/-- Before shutdown: a thread that goes to sleep on a full queue leaves a worker that is not blocked
at the lock of `sub_mutex`, and so does a callback that comes to this lock while a thread waits for
space. -/
structure Unblocked (s : State κ) (l : Label κ) : Prop where
  sleeps : s.main = .idle → ∀ t o a task, l = .go t o → s.call t = some (.enqueueTest a task) →
    s.queue.count = MAX_TASKS → ∃ j, .worker j ≠ t ∧ ¬ AtSub s (.worker j)
  arrives : s.main = .idle → ∀ i, Arrives s l i → ∀ t ∈ s.notFull,
    ∃ j, j ≠ i ∧ .worker j ≠ t ∧ ¬ AtSub s (.worker j)

/-! ## The invariant -/

/-- On the way to look at the queue. -/
def WorkerPc.seeks : WorkerPc → Nat
  | lock | test => 1
  | _ => 0

/-- A worker before shutdown; a callback has a subscription. -/
def WorkerPc.Live : WorkerPc → Prop
  | leave | exited => False
  | running task | recover task => task.subPtr ≠ none
  | _ => True

/-- The number of workers on the way to look at the queue. -/
def State.seekers (s : State κ) : Nat := ∑ i, (s.worker i).seeks

/-- How the number changes when a worker moves. -/
theorem seekers_update (f : Worker → WorkerPc) (i : Worker) (w : WorkerPc) {m n : Nat}
    (hm : (f i).seeks = m) (hn : w.seeks = n) :
    (∑ j, (Function.update f i w j).seeks) + m = (∑ j, (f j).seeks) + n := by
  rw [← hm, ← hn]
  exact sum_update WorkerPc.seeks f i w

theorem exists_seeker {s : State κ} (h : 0 < s.seekers) : ∃ i, 0 < (s.worker i).seeks := by
  by_contra hn
  have h0 : s.seekers = 0 := Finset.sum_eq_zero fun i _ => by
    by_contra hi
    exact hn ⟨i, Nat.pos_of_ne_zero hi⟩
  omega

/-- The invariant of a run without crashes in the critical section of `sub_mutex`; the parts below
`up` are about the time before shutdown. -/
structure Space (s : State κ) : Prop extends Locks s where
  subOwner : ∀ t, s.subMutex = .held t → s.inSub t
  up : s.main = .idle → s.shutDown = false
  live : s.main = .idle → ∀ i, (s.worker i).Live
  waiting : s.main = .idle → s.notFull ≠ [] → s.queue.count = MAX_TASKS
  sleeping : s.main = .idle → s.notEmpty ≠ [] → s.queue.count ≤ s.seekers

theorem space_init (subs : List Sub) : Space (init κ subs) where
  toLocks := locks_init subs
  subOwner := fun _ h => nomatch h
  up := fun _ => rfl
  live := fun _ _ => trivial
  waiting := fun _ h => absurd rfl h
  sleeping := fun _ h => absurd rfl h

/-- Before shutdown a thread asleep on `cond_not_full` holds `sub_mutex`, so there is at most one. -/
theorem Space.waiter {s : State κ} (hs : Space s) (hm : s.main = .idle) {t u : Caller κ}
    (ht : t ∈ s.notFull) (hu : s.inSub (.caller u)) : u = t := by
  have held : ∀ v, s.inSub (.caller v) → s.subMutex = .held (.caller v) := fun v hv => by
    rcases hs.sub _ hv with h | h
    · exact h
    · rw [hs.pos.subMutex h] at hm; cases hm
  obtain ⟨a, task, hc⟩ := (hs.pos.notFull t).mp ht
  have h₁ := held t ((inSub_at hc).mpr rfl)
  rw [held u hu, Mutex.held.injEq, Thread.caller.injEq] at h₁
  exact h₁

/-- The parts of the invariant about the time before shutdown. -/
structure Early (s : State κ) : Prop where
  up : s.shutDown = false
  live : ∀ i, (s.worker i).Live
  waiting : s.notFull ≠ [] → s.queue.count = MAX_TASKS
  sleeping : s.notEmpty ≠ [] → s.queue.count ≤ s.seekers

theorem Space.early {s : State κ} (hs : Space s) (hm : s.main = .idle) : Early s :=
  ⟨hs.up hm, hs.live hm, hs.waiting hm, hs.sleeping hm⟩

/-- A step that does not touch the queue, the workers or who sleeps. -/
theorem Early.congr {s s' : State κ} (he : Early s) (up : s'.shutDown = s.shutDown)
    (worker : s'.worker = s.worker) (queue : s'.queue = s.queue)
    (notFull : s'.notFull = [] ∨ s'.notFull = s.notFull) (notEmpty : s'.notEmpty = s.notEmpty) :
    Early s' where
  up := up.trans he.up
  live := by rw [worker]; exact he.live
  waiting := fun h => by
    rcases notFull with hn | hn
    · exact absurd hn h
    · rw [queue]; exact he.waiting (hn ▸ h)
  sleeping := fun h => by
    rw [queue]
    unfold State.seekers
    rw [worker]
    exact he.sleeping (notEmpty ▸ h)

theorem Early.quiet {s s' : State κ} {t : Caller κ} {next : Option CallPc} (he : Early s)
    (hq : Quiet s s' t next) : Early s' :=
  he.congr hq.shutDown hq.worker hq.queue (.inr hq.notFull) hq.notEmpty

/-- A worker moves, and looks at the queue no less than before. -/
theorem Early.work {s s' : State κ} {i : Worker} {w : WorkerPc} (he : Early s)
    (up : s'.shutDown = s.shutDown) (worker : s'.worker = Function.update s.worker i w)
    (seeks : (s.worker i).seeks ≤ w.seeks) (live : w.Live)
    (queue : s'.queue = s.queue) (notFull : s'.notFull = s.notFull)
    (notEmpty : s'.notEmpty ≠ [] → s.notEmpty ≠ []) : Early s' where
  up := up.trans he.up
  live := fun j => by
    rw [worker]
    by_cases hj : j = i
    · rw [hj, Function.update_self]; exact live
    · rw [Function.update_of_ne hj]; exact he.live j
  waiting := fun h => by rw [queue]; exact he.waiting (notFull ▸ h)
  sleeping := fun h => by
    have hle := he.sleeping (notEmpty h)
    have hsum := seekers_update s.worker i w rfl rfl
    unfold State.seekers at hle ⊢
    rw [queue, worker]
    omega

theorem CallMove.early {s s' : State κ} (he : Early s) (hp : Pos s) {t : Caller κ} {o : Outcome}
    {c : CallPc} (move : CallMove s t o c s') : Early s' := by
  cases move with
  | lockSub quiet => exact he.quiet quiet
  | inside quiet => exact he.quiet quiet
  | copies => exact he.congr rfl rfl rfl (.inr rfl) rfl
  | unlockSub quiet => exact he.quiet quiet
  | outside quiet => exact he.quiet quiet
  | enqueueLock => exact he.congr rfl rfl rfl (.inr rfl) rfl
  | sleep full => exact ⟨he.up, he.live, fun _ => full, he.sleeping⟩
  | refuse down => rw [he.up] at down; cases down
  | @push a task i rest room up wake =>
    have none : s.notFull = [] := by
      by_contra h
      exact room (he.waiting h)
    rcases signal_cases wake with ⟨-, rfl, rfl⟩ | ⟨j, hj, rfl, rfl⟩
    · exact ⟨he.up, he.live, fun h => absurd none h, fun h => absurd rfl h⟩
    · -- The new task wakes a worker.
      have hw := (hp.notEmpty j).mp hj
      refine ⟨he.up, fun k => ?_, fun h => absurd none h, fun _ => ?_⟩
      · show (Function.update s.worker j WorkerPc.lock k).Live
        by_cases hk : k = j
        · rw [hk, Function.update_self]; trivial
        · rw [Function.update_of_ne hk]; exact he.live k
      · have hle := he.sleeping fun h => by rw [h] at hj; cases hj
        have hsum := @seekers_update s.worker j .lock 0 1 (by rw [hw]; rfl) rfl
        show s.queue.count + 1 ≤ ∑ k, (Function.update s.worker j WorkerPc.lock k).seeks
        unfold State.seekers at hle
        omega
  | enqueueUnlock => exact he.congr rfl rfl rfl (.inr rfl) rfl

theorem WorkMove.early {s s' : State κ} (he : Early s) (hs : Space s) (hm : s.main = .idle)
    {i : Worker} {o : Outcome} {w : WorkerPc} (at_ : s.worker i = w)
    (move : WorkMove s i o w s') : Early s' := by
  -- A move that looks at the queue no less than before.
  have goes : ∀ {s₁ : State κ} (w' : WorkerPc), w.seeks ≤ w'.seeks → w'.Live →
      s₁.worker = Function.update s.worker i w' → s₁.shutDown = s.shutDown →
      s₁.queue = s.queue → s₁.notFull = s.notFull → s₁.notEmpty = s.notEmpty → Early s₁ :=
    fun w' hw hne h₁ h₂ h₃ h₄ h₅ => he.work h₂ h₁ (at_ ▸ hw) hne h₃ h₄ fun h => h₅ ▸ h
  cases move with
  | lock => exact goes .test (Nat.le_refl _) trivial rfl rfl rfl rfl rfl
  | sleep empty =>
    refine ⟨he.up, fun j => ?_, he.waiting, fun _ => ?_⟩
    · show (Function.update s.worker i WorkerPc.wait j).Live
      by_cases hj : j = i
      · rw [hj, Function.update_self]; trivial
      · rw [Function.update_of_ne hj]; exact he.live j
    · show s.queue.count ≤ _
      rw [empty]
      exact Nat.zero_le _
  | drained empty down => rw [he.up] at down; cases down
  | @pop t rest nonempty wake =>
    obtain ⟨call, hwake⟩ := wakeCaller_frame { s with
      queue := s.queue.pop MAX_TASKS, taken := s.taken ++ [(i, s.queue.front)], notFull := rest } t
    rw [hwake]
    have alone : rest = [] := by
      rcases signal_cases wake with ⟨-, -, h⟩ | ⟨u, hu, -, rfl⟩
      · exact h
      · -- Two waiters would both hold `sub_mutex`.
        refine List.eq_nil_iff_forall_not_mem.mpr fun v hv => ?_
        obtain ⟨hne, hv⟩ := hs.pos.notFullNodup.mem_erase_iff.mp hv
        obtain ⟨a, task, hc⟩ := (hs.pos.notFull v).mp hv
        exact hne (hs.waiter hm hu ((inSub_at hc).mpr rfl))
    refine ⟨he.up, fun j => ?_, fun h => absurd alone h, fun h => ?_⟩
    · show (Function.update s.worker i (WorkerPc.unlock s.queue.front) j).Live
      by_cases hj : j = i
      · rw [hj, Function.update_self]; trivial
      · rw [Function.update_of_ne hj]; exact he.live j
    · have hle := he.sleeping h
      have hsum :=
        @seekers_update s.worker i (.unlock s.queue.front) 1 0 (by rw [at_]; rfl) rfl
      show s.queue.count - 1 ≤
        ∑ j, (Function.update s.worker i (.unlock s.queue.front) j).seeks
      unfold State.seekers at hle
      omega
  | unlock => exact goes (.dispatch _) (Nat.le_refl _) trivial rfl rfl rfl rfl rfl
  | dispatch sub =>
    exact goes (.running _) (Nat.le_refl _) (fun h => by rw [sub] at h; cases h) rfl rfl rfl rfl rfl
  | skip => exact goes (.freeing _) (Nat.le_refl _) trivial rfl rfl rfl rfl rfl
  | recover => exact goes .lock (Nat.zero_le _) trivial rfl rfl rfl rfl rfl
  | free => exact goes .lock (Nat.zero_le _) trivial rfl rfl rfl rfl rfl
  | exit => exact (at_ ▸ he.live i : WorkerPc.leave.Live).elim

/-- A crash takes a worker from its callback to its recovery. -/
theorem Early.crash {s : State κ} (he : Early s) (hp : Pos s) {t : Caller κ}
    (hin : (∃ c, s.call t = some c) ∨ s.isOutside t = true) : Early (s.recover t) := by
  cases t with
  | client k => exact he.congr rfl rfl rfl (.inr rfl) rfl
  | worker i =>
    obtain ⟨task, hw⟩ := hp.running hin
    rw [recover_worker hw]
    exact he.work rfl rfl (by rw [hw]; exact Nat.zero_le _)
      (hw ▸ he.live i : (WorkerPc.running task).Live) rfl rfl fun h => h

/-- Before shutdown every step keeps the parts about that time. -/
theorem step_early {s s' : State κ} {l : Label κ} (hs : Space s) (hm : s.main = .idle)
    (hm' : s'.main = .idle) (h : (bus κ).step l s = some s') : Early s' := by
  have he := hs.early hm
  cases step_moves h with
  | call outside up quiet => exact he.quiet quiet
  | go at_ move => exact move.early he hs.pos
  | work move => exact move.early he hs hm rfl
  | ret running =>
    exact he.work rfl rfl (by rw [running]; exact Nat.zero_le _) trivial rfl rfl fun h => h
  | crashIn at_ => exact he.crash hs.pos (.inl ⟨_, at_⟩)
  | crashOut outside => exact he.crash hs.pos (.inr outside)
  | @wakeCaller t asleep =>
    obtain ⟨a, task, hc⟩ := (hs.pos.notFull t).mp asleep
    rw [@wakeCaller_eq κ _ { s with notFull := s.notFull.erase t } t a task hc]
    refine ⟨he.up, he.live, fun h => he.waiting fun h' => h ?_, he.sleeping⟩
    show s.notFull.erase t = []
    rw [h']
    rfl
  | @wakeWorker i asleep =>
    refine he.work rfl rfl ?_ trivial rfl rfl fun _ h => by rw [h] at asleep; cases asleep
    rw [(hs.pos.notEmpty i).mp asleep]
    exact Nat.zero_le _
  | shutdown => cases hm'
  | main step =>
    have move := mainStep_moves step
    rw [hm] at move
    cases move

/-- `bus_shutdown` is called once. -/
theorem main_idle {s s' : State κ} {l : Label κ} (h : (bus κ).step l s = some s')
    (hm' : s'.main = .idle) : s.main = .idle := by
  rcases step_flags h with ⟨hm, -⟩ | rfl | rfl
  · exact hm ▸ hm'
  · cases step_moves h
    cases hm'
  · have move := mainStep_moves h
    generalize s.main = m at move ⊢
    cases move <;> cases hm'

/-- Steps without such crashes keep the invariant. -/
theorem space_keeps : (bus κ).Keeps Uncrashed Space := by
  intro s l s' hs hg h
  have early : s'.main = .idle → Early s' := fun hm' => step_early hs (main_idle h hm') hm' h
  exact {
    toLocks := locks_keeps s l s' hs.toLocks trivial h
    subOwner := fun t ht => (step_useSub hs.pos h).owned (hs.subOwner t) (hg t) ht
    up := fun hm => (early hm).up
    live := fun hm => (early hm).live
    waiting := fun hm => (early hm).waiting
    sleeping := fun hm => (early hm).sleeping }

/-! ## Progress -/

section Enabled

variable {s : State κ}

/-- The outcome with which a step that does not block goes through. -/
def Outcome.least : Outcome := ⟨false, false, 0, false⟩

/-- A thread in a bus call has an enabled step unless it waits for a mutex or for space. -/
theorem call_enabled {t : Caller κ} {c : CallPc} (hc : s.call t = some c)
    (sub : c.atSub = true → ∀ u, s.subMutex ≠ .held u)
    (queue : ∀ u, s.queueMutex ≠ .held u ∨ c.holdsQueue = true)
    (wait : ∀ a task, c ≠ .enqueueWait a task) :
    ∃ l, l.Own s ∧ (bus κ).Enabled l s := by
  have go : ∀ s', callStep t Outcome.least c s = some s' → ∃ l, l.Own s ∧ (bus κ).Enabled l s :=
    fun s' h => ⟨.go t .least, trivial, s', by simp only [bus, step, hc, Option.bind_some, h]⟩
  cases c with
  | publishLock a =>
    obtain ⟨m, hm⟩ := Mutex.lock_some (.caller t) (sub rfl)
    exact go _ (by simp only [callStep, hm, Option.map_some]; rfl)
  | subscribeLock n =>
    obtain ⟨m, hm⟩ := Mutex.lock_some (.caller t) (sub rfl)
    exact go _ (by simp only [callStep, hm, Option.map_some]; rfl)
  | publishSearch a =>
    cases hs : search a.pluginId a.event s.subs with
    | notFound => exact go _ (by simp only [callStep, hs]; rfl)
    | found it => exact go _ (by simp only [callStep, hs]; rfl)
    | fault =>
      refine ⟨.crash t, by rw [Label.Own, hc]; exact Option.some_ne_none _, s.recover t, ?_⟩
      simp only [bus, step, hc, faults, hs, decide_true, ↓reduceIte]
  | enqueueLock a task =>
    have free : ∀ u, s.queueMutex ≠ .held u := fun u => (queue u).resolve_right Bool.false_ne_true
    obtain ⟨m, hm⟩ := Mutex.lock_some (.caller t) free
    exact go _ (by simp only [callStep, hm, Option.map_some]; rfl)
  | enqueueTest a task =>
    by_cases h₁ : s.queue.count = MAX_TASKS ∧ s.shutDown = false
    · exact go _ (by simp only [callStep, h₁]; rfl)
    by_cases h₂ : s.shutDown = true
    · exact go _ (by simp only [callStep, if_neg h₁, if_pos h₂]; rfl)
    obtain ⟨p, hp⟩ := signal_zero s.notEmpty
    exact go _ (by simp only [callStep, if_neg h₁, if_neg h₂, Outcome.least, hp]; rfl)
  | enqueueWait a task => exact absurd rfl (wait a task)
  | publishCopy | publishMiss | publishMsg | publishUnlock | enqueueUnlock | subscribeAlloc
  | subscribeInsert | subscribeUnlock | subscribeMsg => exact go _ rfl

/-- A worker has an enabled step unless it waits for the mutex or for a task, or is in a bus call. -/
theorem work_enabled {i : Worker} (queue : ∀ u, s.queueMutex ≠ .held u ∨ (s.worker i).holdsQueue)
    (live : (s.worker i).Live) (wait : s.worker i ≠ .wait)
    (idle : (s.worker i).isRunning = true → s.call (.worker i) = none) :
    ∃ l, l.Own s ∧ (bus κ).Enabled l s := by
  have work : ∀ s', workerStep i Outcome.least s = some s' →
      ∃ l, l.Own s ∧ (bus κ).Enabled l s := fun s' h => ⟨.work i .least, trivial, s', h⟩
  cases hw : s.worker i with
  | lock =>
    have free : ∀ u, s.queueMutex ≠ .held u := fun u => (queue u).resolve_right (by rw [hw]; nofun)
    obtain ⟨m, hm⟩ := Mutex.lock_some (.caller (.worker i)) free
    exact work _ (by simp only [workerStep, hw, hm, Option.map_some]; rfl)
  | test =>
    by_cases h₁ : s.queue.count = 0 ∧ s.shutDown = false
    · exact work _ (by simp only [workerStep, hw, h₁]; rfl)
    by_cases h₂ : s.shutDown = true ∧ s.queue.count = 0
    · exact work _ (by simp only [workerStep, hw, if_neg h₁, if_pos h₂]; rfl)
    obtain ⟨p, hp⟩ := signal_zero s.notFull
    exact work _ (by simp only [workerStep, hw, if_neg h₁, if_neg h₂, Outcome.least, hp]; rfl)
  | wait => exact absurd hw wait
  | unlock task => exact work _ (by simp only [workerStep, hw]; rfl)
  | dispatch task =>
    cases hs : task.subPtr with
    | some it => exact work _ (by simp only [workerStep, hw, hs]; rfl)
    | none => exact work _ (by simp only [workerStep, hw, hs]; rfl)
  | running task =>
    refine ⟨.ret i, trivial, s.gotoWorker i (.freeing task), ?_⟩
    simp only [bus, step, hw, idle (by rw [hw]; rfl), ↓reduceIte]
  | recover task =>
    rw [hw] at live
    obtain ⟨it, hs⟩ := Option.ne_none_iff_exists'.mp live
    exact work _ (by simp only [workerStep, hw, hs, Option.map_some]; rfl)
  | freeing task => exact work _ (by simp only [workerStep, hw]; rfl)
  | leave => rw [hw] at live; exact live.elim
  | exited => rw [hw] at live; exact live.elim

end Enabled

section Standstill

variable {s : State κ} (hs : Space s) (hm : s.main = .idle)
  (no : ¬ ∃ l, l.Own s ∧ (bus κ).Enabled l s)

include hs hm no

/-- The holder of the queue's mutex could go on, so at a standstill the mutex is free. -/
theorem Space.queue_unheld (u : Thread κ) : s.queueMutex ≠ .held u := by
  intro hu
  have hin := hs.queueOwner u hu
  cases u with
  | main => rw [State.inQueue, hm] at hin; cases hin
  | caller t =>
    rcases hin with hin | hin
    · obtain ⟨c, hc, hh⟩ := Option.any_eq_true _ _ |>.mp hin
      refine no (call_enabled hc (fun ha => ?_) (fun _ => .inr hh) fun a task he => ?_)
      · revert hh ha
        cases c <;> simp [CallPc.holdsQueue, CallPc.atSub]
      · rw [he] at hh
        cases hh
    · cases t with
      | client k => cases hin
      | worker i =>
        refine no (work_enabled (fun _ => .inr hin) (hs.live hm i) (fun h => ?_) fun hr => ?_)
        · rw [State.workQueue, h] at hin; cases hin
        · rw [State.workQueue, WorkerPc.holdsQueue_of_isRunning hr] at hin; cases hin

/-- A thread in a bus call waits for `sub_mutex`, which is held, or for space. -/
theorem Space.call_waits {t : Caller κ} {c : CallPc} (hc : s.call t = some c) :
    (c.atSub = true ∧ ∃ u, s.subMutex = .held u) ∨ t ∈ s.notFull := by
  by_contra h
  obtain ⟨h₁, h₂⟩ := not_or.mp h
  exact no (call_enabled hc (fun ha u hu => h₁ ⟨ha, u, hu⟩)
    (fun u => .inl (hs.queue_unheld hm no u))
    fun a task he => h₂ ((hs.pos.notFull t).mpr ⟨a, task, he ▸ hc⟩))

/-- A worker sleeps, or is in a bus call. -/
theorem Space.worker_waits (i : Worker) : s.worker i = .wait ∨ s.call (.worker i) ≠ none := by
  by_contra h
  obtain ⟨h₁, h₂⟩ := not_or.mp h
  exact no (work_enabled (fun u => .inl (hs.queue_unheld hm no u)) (hs.live hm i) h₁
    fun _ => not_not.mp h₂)

/-- No worker is on its way to a task, so a worker sleeps only when there is none. -/
theorem Space.empty_of_wait {i : Worker} (hi : s.worker i = .wait) : s.queue.count = 0 := by
  have nobody : s.seekers = 0 := by
    by_contra h
    obtain ⟨j, hj⟩ := exists_seeker (Nat.pos_of_ne_zero h)
    rcases hs.worker_waits hm no j with hw | hc
    · rw [hw] at hj; exact absurd hj (Nat.lt_irrefl 0)
    · obtain ⟨c, hc⟩ := Option.ne_none_iff_exists'.mp hc
      have hr := hs.pos.inCall j c hc
      revert hj hr
      cases s.worker j <;> simp [WorkerPc.seeks, WorkerPc.isRunning]
  have hmem := (hs.pos.notEmpty i).mpr hi
  have := hs.sleeping hm fun h => by rw [h] at hmem; cases hmem
  omega

/-- The holder of `sub_mutex` waits for space, and all workers wait for it. -/
theorem Space.stuck_of_held {u : Thread κ} (hu : s.subMutex = .held u) : Stuck s := by
  have hin := hs.subOwner u hu
  cases u with
  | main => rw [State.inSub, hm] at hin; cases hin
  | caller t =>
    obtain ⟨c, hc, hh⟩ := Option.any_eq_true _ _ |>.mp hin
    have ht : t ∈ s.notFull := by
      rcases hs.call_waits hm no hc with ⟨ha, -⟩ | h
      · revert hh ha
        cases c <;> simp [CallPc.holdsSub, CallPc.atSub]
      · exact h
    have hfull := hs.waiting hm fun h => by rw [h] at ht; cases ht
    refine ⟨t, ht, fun i hne => ?_⟩
    rcases hs.worker_waits hm no i with hw | hc'
    · rw [hs.empty_of_wait hm no hw] at hfull; cases hfull
    · obtain ⟨c', hc'⟩ := Option.ne_none_iff_exists'.mp hc'
      rcases hs.call_waits hm no hc' with ⟨ha, -⟩ | h
      · exact ⟨c', hc', ha⟩
      · obtain ⟨a, task, hw⟩ := (hs.pos.notFull _).mp h
        exact absurd (hs.waiter hm ht ((inSub_at hw).mpr rfl)) hne

end Standstill

/-- **Progress.** Before shutdown a state that is not stuck makes progress. -/
theorem Space.progress {s : State κ} (hs : Space s) (hm : s.main = .idle) (hn : ¬ Stuck s) :
    Progress s := by
  intro busy
  by_contra no
  have unheld : ∀ u, s.subMutex ≠ .held u := fun u hu => hn (hs.stuck_of_held hm no hu)
  -- Nobody is in a bus call, so the workers sleep on an empty queue.
  have free : ∀ t, s.call t = none := by
    intro t
    by_contra h
    obtain ⟨c, hc⟩ := Option.ne_none_iff_exists'.mp h
    rcases hs.call_waits hm no hc with ⟨-, u, hu⟩ | h
    · exact unheld u hu
    · obtain ⟨a, task, hw⟩ := (hs.pos.notFull t).mp h
      rcases hs.sub _ ((inSub_at hw).mpr rfl) with h | h
      · exact unheld _ h
      · rw [hs.pos.subMutex h] at hm; cases hm
  have sleeps : s.worker 0 = .wait := (hs.worker_waits hm no 0).resolve_right (not_not.mpr (free _))
  rcases busy with h | ⟨t, h⟩
  · rw [hs.empty_of_wait hm no sleeps] at h
    exact absurd h (Nat.lt_irrefl 0)
  · exact h (free t)

/-! ## Stuck states -/

section Stuck

variable {s s' : State κ}

/-- Nobody new waits for space and no worker comes to the lock of `sub_mutex`. -/
theorem Stuck.back (h : Stuck s') (notFull : ∀ t ∈ s'.notFull, t ∈ s.notFull)
    (atSub : ∀ i, AtSub s' (.worker i) → AtSub s (.worker i)) : Stuck s := by
  obtain ⟨t, ht, hall⟩ := h
  exact ⟨t, notFull t ht, fun i hi => atSub i (hall i hi)⟩

/-- A caller moves, not to the lock of `sub_mutex`. -/
theorem AtSub.back {t u : Caller κ} {next : Option CallPc} (h : AtSub s' u)
    (call : s'.call = Function.update s.call t next) (out : ∀ n ∈ next, n.atSub = false) :
    AtSub s u := by
  obtain ⟨c, hc, ha⟩ := h
  rw [call] at hc
  by_cases hu : u = t
  · rw [hu, Function.update_self] at hc
    rw [out c hc] at ha
    cases ha
  · rw [Function.update_of_ne hu] at hc
    exact ⟨c, hc, ha⟩

/-- Another caller moves. -/
theorem AtSub.other {t u : Caller κ} {next : Option CallPc}
    (call : s'.call = Function.update s.call t next) (hu : u ≠ t) : AtSub s' u ↔ AtSub s u := by
  unfold AtSub
  rw [call, Function.update_of_ne hu]

theorem CallPc.atSub_of_holdsSub {c : CallPc} (h : c.holdsSub = true) : c.atSub = false := by
  cases c <;> first | rfl | cases h

/-- A worker that comes to the lock of `sub_mutex` leaves another one that is not there. -/
theorem not_stuck_of_arrives {l : Label κ} {i : Worker} {next : Option CallPc}
    (hm : s.main = .idle) (hu : Unblocked s l) (ha : Arrives s l i)
    (call : s'.call = Function.update s.call (.worker i) next) (notFull : s'.notFull = s.notFull) :
    ¬ Stuck s' := by
  rintro ⟨t, ht, hall⟩
  rw [notFull] at ht
  obtain ⟨j, hji, hjt, hj⟩ := hu.arrives hm i ha t ht
  exact hj ((AtSub.other call (fun e => hji (Caller.worker.inj e))).mp (hall j hjt))

theorem atSub_wakeCaller {t : Option (Caller κ)} {u : Caller κ} (h : AtSub (s.wakeCaller t) u) :
    AtSub s u := by
  unfold State.wakeCaller at h
  split at h
  · exact h
  · split at h
    · exact h.back rfl fun n hn => by cases Option.mem_some_iff.mp hn; rfl
    · exact h

theorem wakeCaller_notFull (t : Option (Caller κ)) : (s.wakeCaller t).notFull = s.notFull := by
  obtain ⟨_, h⟩ := wakeCaller_frame s t
  rw [h]

theorem CallMove.not_stuck {t : Caller κ} {o : Outcome} {c : CallPc} (hs : Space s)
    (hm : s.main = .idle) (hn : ¬ Stuck s) (at_ : s.call t = some c)
    (hu : Unblocked s (.go t o)) (move : CallMove s t o c s') : ¬ Stuck s' := by
  have one : ∀ {n m : CallPc}, m ∈ some n → m = n := fun h => (Option.mem_some_iff.mp h).symm
  have back : ∀ {s₁ : State κ} {next : Option CallPc}, s₁.call = Function.update s.call t next →
      (∀ n ∈ next, n.atSub = false) → s₁.notFull = s.notFull → ¬ Stuck s₁ :=
    fun hc ho hf h => hn (h.back (fun u hu => hf ▸ hu) fun i hi => hi.back hc ho)
  cases move with
  | lockSub quiet _ _ leaves =>
    exact back quiet.call (fun n hn => one hn ▸ leaves) quiet.notFull
  | inside quiet _ _ after =>
    exact back quiet.call (fun n hn => one hn ▸ CallPc.atSub_of_holdsSub after) quiet.notFull
  | @copies a it bytes =>
    exact back rfl (fun n hn => by cases one hn; rfl) rfl
  | unlockSub quiet _ _ after => exact back quiet.call (fun n hn => (after n hn).2) quiet.notFull
  | @outside _ next _ quiet before notAt after arrives =>
    by_cases ha : ∃ n ∈ next, n.atSub = true
    · obtain ⟨a, cb, e, rfl, he, hm₁, hm₂⟩ := arrives ha
      cases t with
      | client k =>
        intro h
        refine hn (h.back (fun u hu => quiet.notFull ▸ hu) fun i hi => ?_)
        exact (@AtSub.other κ _ s s' (.client k) (.worker i) _ quiet.call nofun).mp hi
      | worker i =>
        exact not_stuck_of_arrives hm hu (.inr ⟨o, a, cb, e, rfl, at_, he, hm₁, hm₂⟩) quiet.call
          quiet.notFull
    · refine back quiet.call (fun n hn => ?_) quiet.notFull
      cases hat : n.atSub with
      | false => rfl
      | true => exact absurd ⟨n, hn, hat⟩ ha
  | enqueueLock => exact back rfl (fun n hn => by cases one hn; rfl) rfl
  | @sleep a task full =>
    rintro ⟨u, hu', hall⟩
    have hut : u = t := by
      rcases List.mem_append.mp hu' with hw | hw
      · exact (hs.waiter hm hw ((inSub_at at_).mpr rfl)).symm
      · exact List.mem_singleton.mp hw
    subst hut
    obtain ⟨j, hj, hat⟩ := hu.sleeps hm u o a task rfl at_ full
    exact hat ((hall j hj).back rfl fun n hn => by cases one hn; rfl)
  | refuse => exact back rfl (fun n hn => by cases one hn; rfl) rfl
  | @push _ _ i => cases i <;> exact back rfl (fun n hn => by cases one hn; rfl) rfl
  | enqueueUnlock => exact back rfl (fun n hn => by cases one hn; rfl) rfl

/-- **A step that blocks no last worker** does not lead to a stuck state. -/
theorem step_not_stuck {l : Label κ} (hs : Space s) (hm : s.main = .idle) (hn : ¬ Stuck s)
    (hu : Unblocked s l) (h : (bus κ).step l s = some s') (hm' : s'.main = .idle) : ¬ Stuck s' := by
  have same : ∀ {s₁ : State κ}, s₁.call = s.call → s₁.notFull = s.notFull → ¬ Stuck s₁ :=
    fun hc hf h => hn (h.back (fun t ht => hf ▸ ht) fun i hi => by unfold AtSub at hi ⊢; rwa [← hc])
  have crash : ∀ {t : Caller κ}, ((∃ c, s.call t = some c) ∨ s.isOutside t = true) →
      ¬ Stuck (s.recover t) := fun {t} hin h => by
    obtain ⟨call, -⟩ := recover_call hs.pos hin
    refine hn (h.back (fun u hu => ?_) fun i hi => hi.back call fun _ h => nomatch h)
    obtain ⟨_, _, hr⟩ := recover_frame s t
    rwa [hr] at hu
  cases step_moves h with
  | @call t c _ outside up quiet =>
    by_cases ha : ∃ n ∈ c.first, n.atSub = true
    · cases t with
      | client k =>
        intro h
        refine hn (h.back (fun u hu => quiet.notFull ▸ hu) fun i hi => ?_)
        exact (@AtSub.other κ _ s s' (.client k) (.worker i) _ quiet.call nofun).mp hi
      | worker i =>
        obtain ⟨n, hn', hat⟩ := ha
        exact not_stuck_of_arrives hm hu (.inl ⟨c, n, rfl, outside, hn', hat⟩) quiet.call
          quiet.notFull
    · intro h
      refine hn (h.back (fun u hu => quiet.notFull ▸ hu) fun i hi => hi.back quiet.call fun n hn => ?_)
      cases hat : n.atSub with
      | false => rfl
      | true => exact absurd ⟨n, hn, hat⟩ ha
  | go at_ move => exact move.not_stuck hs hm hn at_ hu
  | @work i o _ move =>
    generalize s.worker i = w at move
    cases move with
    | @pop t rest nonempty wake =>
      intro h
      refine hn (h.back (fun u hu => ?_) fun j hj => ?_)
      · have hu' : u ∈ rest := by
          have := hu
          simp only [State.gotoWorker, wakeCaller_notFull] at this
          exact this
        rcases signal_cases wake with ⟨-, -, rfl⟩ | ⟨v, -, -, rfl⟩
        · cases hu'
        · exact List.mem_of_mem_erase hu'
      · exact @atSub_wakeCaller κ _ { s with queue := s.queue.pop MAX_TASKS
                                             taken := s.taken ++ [(i, s.queue.front)]
                                             notFull := rest } t _ hj
    | _ => exact same rfl rfl
  | ret => exact same rfl rfl
  | crashIn at_ => exact crash (.inl ⟨_, at_⟩)
  | crashOut outside => exact crash (.inr outside)
  | @wakeCaller t asleep =>
    intro h
    refine hn (h.back (fun u hu => ?_) fun j hj => ?_)
    · rw [wakeCaller_notFull] at hu
      exact List.mem_of_mem_erase hu
    · exact @atSub_wakeCaller κ _ { s with notFull := s.notFull.erase t } (some t) _ hj
  | wakeWorker => exact same rfl rfl
  | shutdown => cases hm'
  | main step =>
    have move := mainStep_moves step
    rw [hm] at move
    cases move

/-- A step after which the bus is free of deadlock blocks no last worker. -/
theorem unblocked_of_free {l : Label κ} (hs : Space s)
    (hP : ∀ s', (bus κ).step l s = some s' → DeadlockFree s') : Unblocked s l where
  sleeps := by
    rintro hm t o a task rfl hc hfull
    by_contra hno
    have hstep : (bus κ).step (.go t o) s = some ({ s with
        queueMutex := s.queueMutex.unlock, notFull := s.notFull ++ [t] }.goto t
          (.enqueueWait a task)) := by
      simp only [bus, step, hc, Option.bind_some, callStep, hfull, hs.up hm, and_self, ↓reduceIte]
    refine (hP _ hstep hm).1 ⟨t, List.mem_append_right _ (List.mem_singleton_self t), fun j hj => ?_⟩
    rw [AtSub.other rfl hj]
    by_contra hat
    exact hno ⟨j, hj, hat⟩
  arrives := by
    intro hm i ha t ht
    by_contra hno
    have others : ∀ j, j ≠ i → .worker j ≠ t → AtSub s (.worker j) := fun j hj hjt => by
      by_contra hat
      exact hno ⟨j, hj, hjt, hat⟩
    have stuck : ∀ {s' : State κ} {next : Option CallPc},
        s'.call = Function.update s.call (.worker i) next → (∃ n ∈ next, n.atSub = true) →
        s'.notFull = s.notFull → Stuck s' := fun {s' next} call hn hf => by
      refine ⟨t, hf ▸ ht, fun j hj => ?_⟩
      by_cases hji : j = i
      · obtain ⟨n, hn, hat⟩ := hn
        exact ⟨n, by rw [call, hji, Function.update_self]; exact hn, hat⟩
      · exact (AtSub.other call fun e => hji (Caller.worker.inj e)).mpr (others j hji hj)
    rcases ha with ⟨c, n, rfl, ho, hf, hat⟩ | ⟨o, a, cb, e, rfl, hc, he, hm₁, hm₂⟩
    · have hstep : (bus κ).step (.call (.worker i) c) s = some (beginCall (.worker i) c s) := by
        simp only [bus, step, ho, hm, ne_eq, reduceCtorEq, not_false_eq_true, and_self, ↓reduceIte]
      obtain ⟨quiet, -⟩ := beginCall_quiet (.worker i) c s
      exact (hP _ hstep (quiet.main.trans hm)).1 (stuck quiet.call ⟨n, hf, hat⟩ quiet.notFull)
    · have hstep : (bus κ).step (.go (.worker i) o) s =
          some (s.goto (.worker i) (.subscribeLock ⟨e, a.pluginId, cb, a.user⟩)) := by
        simp only [bus, step, hc, Option.bind_some, callStep, he, hm₁, hm₂, Bool.true_eq_false,
          ↓reduceIte]
      exact (hP _ hstep hm).1 (stuck rfl ⟨_, rfl, rfl⟩ rfl)

end Stuck

/-- Without crashes the hypothesis of `deadlockFree_iff` holds. -/
theorem uncrashed_of_no_crash {ls : List (Label κ)} (h : ∀ t, .crash t ∉ ls) (s : State κ) :
    (bus κ).Meets Uncrashed ls s :=
  Machine.Meets.of_mem (fun _ _ hl _ ⟨t, _, _, e, _⟩ => h t (e ▸ hl)) s

/-- A publish of one byte to the event `e` of plugin 1. -/
def publishByte : BusCall := .publish ⟨1, .obj ['e'], .obj [7], 1⟩

/-- A client publishes; a worker takes the task, calls its callback and frees the data. -/
def deliverRun : List (Label Unit) :=
  .call (.client ()) publishByte :: List.replicate 7 (.go (.client ()) .ok) ++
    List.replicate 4 (.work 0 .ok) ++ [.ret 0, .work 0 .ok]

/-- Each worker takes a task and calls its callback; a client fills the queue and publishes once
more; the callbacks publish. -/
def stuckRun : List (Label Unit) :=
  let publish := .call (.client ()) publishByte :: List.replicate 7 (.go (.client ()) .ok)
  let workers : List Worker := [0, 1, 2, 3, 4]
  workers.flatMap (fun i => publish ++ List.replicate 4 (.work i .ok)) ++
    (List.replicate MAX_TASKS publish).flatten ++
    .call (.client ()) publishByte :: List.replicate 5 (.go (.client ()) .ok) ++
    workers.map fun i => .call (.worker i) publishByte

/-- The client sleeps with `sub_mutex` held, and every callback waits for this mutex. -/
def Blocked (s : State Unit) : Prop :=
  s.main = .idle ∧ s.queue.count = MAX_TASKS ∧ s.notFull = [.client ()] ∧
    s.subMutex = .held (.caller (.client ())) ∧ (∀ i, (s.worker i).isRunning = true) ∧
    ∀ i, s.call (.worker i) = some (.publishLock ⟨1, .obj ['e'], .obj [7], 1⟩)

instance (s : State Unit) : Decidable (Blocked s) := by unfold Blocked; infer_instance

set_option maxRecDepth 10000 in
theorem stuckRun_blocked :
    ((bus Unit).run stuckRun (init Unit [⟨['e'], 1, 1, 0⟩])).any Blocked = true := by
  decide +kernel

/-- In such a state no thread in the bus can go on. -/
theorem Blocked.not_enabled {s : State Unit} (hb : Blocked s) (hp : Pos s) (l : Label Unit)
    (hl : l.Own s) : ¬ (bus Unit).Enabled l s := by
  obtain ⟨-, -, hf, hm, hr, hc⟩ := hb
  obtain ⟨a, task, hw⟩ := (hp.notFull (.client ())).mp (by rw [hf]; exact List.mem_singleton_self _)
  have running : ∀ i, ∃ task, s.worker i = .running task := fun i => hp.running (.inl ⟨_, hc i⟩)
  rintro ⟨s', hs⟩
  cases step_moves hs with
  | @go t o c _ at_ =>
    obtain ⟨c', hc', hs⟩ := Option.bind_eq_some_iff.mp hs
    cases t with
    | client k =>
      rw [hw, Option.some.injEq] at hc'
      subst hc'
      cases hs
    | worker i =>
      rw [hc, Option.some.injEq] at hc'
      subst hc'
      rw [callStep, hm] at hs
      cases hs
  | @work i o _ move =>
    obtain ⟨task, hi⟩ := running i
    rw [hi] at move
    cases move
  | @ret i _ _ out => rw [hc] at out; cases out
  | @crashIn t c at_ fault =>
    cases t with
    | client k => rw [hw, Option.some.injEq] at at_; subst at_; cases fault
    | worker i => rw [hc, Option.some.injEq] at at_; subst at_; cases fault
  | crashOut out => exact hl (isOutside_call out)
  | call | wakeCaller | wakeWorker | shutdown | main => exact hl

end EventBus
end CoreCDTL
