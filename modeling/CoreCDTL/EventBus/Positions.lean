import CoreCDTL.EventBus.Moves
import Mathlib.Data.List.Nodup

/-!
# Where the threads of the event bus are

`Pos`: a worker in a bus call is in its callback; the threads asleep on a condition variable are those
at its wait; the joined workers have exited; a mutex is destroyed only after that. Every step keeps it
(`pos_keeps`).
-/

set_option linter.unusedSectionVars false

namespace CoreCDTL
namespace EventBus

variable {κ : Type} [DecidableEq κ]

/-! ## Positions -/

/-- The number of workers that `bus_shutdown` has joined. -/
def MainPc.joined : MainPc → Nat
  | idle | lock | broadcast | unlock => 0
  | join i => i
  | _ => MAX_INIT_EVENT_BUS_THREADS

/-- Where the threads are. -/
structure Pos (s : State κ) : Prop where
  inCall : ∀ i c, s.call (.worker i) = some c → (s.worker i).isRunning = true
  notFull : ∀ t, t ∈ s.notFull ↔ ∃ a task, s.call t = some (.enqueueWait a task)
  notFullNodup : s.notFull.Nodup
  notEmpty : ∀ i, i ∈ s.notEmpty ↔ s.worker i = .wait
  notEmptyNodup : s.notEmpty.Nodup
  joined : ∀ i : Worker, i.val < s.main.joined → s.worker i = .exited
  joinedLe : s.main.joined ≤ MAX_INIT_EVENT_BUS_THREADS
  subMutex : s.subMutex = .destroyed → s.main = .done
  queueMutex : s.queueMutex = .destroyed → s.main.joined = MAX_INIT_EVENT_BUS_THREADS

theorem pos_init (subs : List Sub) : Pos (init κ subs) where
  inCall := fun _ _ h => nomatch h
  notFull := fun t => iff_of_false List.not_mem_nil fun ⟨_, _, h⟩ => by cases h
  notFullNodup := List.nodup_nil
  notEmpty := fun i => iff_of_false List.not_mem_nil fun h => by cases h
  notEmptyNodup := List.nodup_nil
  joined := fun _ h => absurd h (Nat.not_lt_zero _)
  joinedLe := Nat.zero_le _
  subMutex := fun h => nomatch h
  queueMutex := fun h => nomatch h

/-- A worker outside of its callback is in no bus call. -/
theorem Pos.call_none {s : State κ} (hp : Pos s) {i : Worker}
    (h : (s.worker i).isRunning = false) : s.call (.worker i) = none := by
  cases hc : s.call (.worker i) with
  | none => rfl
  | some c => rw [hp.inCall i c hc] at h; cases h

/-- The position after a wake-up. -/
theorem wakeCaller_eq {s : State κ} {t : Caller κ} {a : PublishArgs} {task : Task}
    (h : s.call t = some (.enqueueWait a task)) :
    s.wakeCaller (some t) = s.goto t (.enqueueLock a task) := by
  simp only [State.wakeCaller, h]

/-- A wake-up changes a position, and nothing else. -/
theorem wakeCaller_frame (s : State κ) (t : Option (Caller κ)) :
    ∃ call, s.wakeCaller t = { s with call := call } := by
  unfold State.wakeCaller
  split
  · exact ⟨s.call, rfl⟩
  · split
    · exact ⟨_, rfl⟩
    · exact ⟨s.call, rfl⟩

/-- A crash changes positions, and nothing else. -/
theorem recover_frame (s : State κ) (t : Caller κ) :
    ∃ call worker, s.recover t = { s with call := call, worker := worker } := by
  unfold State.recover
  split
  · exact ⟨_, s.worker, rfl⟩
  · split
    · exact ⟨_, _, rfl⟩
    · exact ⟨s.call, s.worker, rfl⟩

section Keeps

variable {s s' : State κ}

/-- A thread moves in its bus call, not from or to a wait. -/
theorem Pos.caller (hp : Pos s) {t : Caller κ} {next : Option CallPc}
    (call : s'.call = Function.update s.call t next)
    (before : ∀ a task, s.call t ≠ some (.enqueueWait a task))
    (after : ∀ a task, next ≠ some (.enqueueWait a task))
    (inCall : ∀ i c, t = .worker i → next = some c → (s.worker i).isRunning = true)
    (worker : s'.worker = s.worker) (notFull : s'.notFull = s.notFull)
    (notEmpty : s'.notEmpty = s.notEmpty) (main : s'.main = s.main)
    (subMutex : s'.subMutex = .destroyed → s.subMutex = .destroyed)
    (queueMutex : s'.queueMutex = .destroyed → s.queueMutex = .destroyed) : Pos s' where
  inCall := fun i c h => by
    rw [worker]
    rw [call] at h
    by_cases ht : Caller.worker i = t
    · rw [ht, Function.update_self] at h
      exact inCall i c ht.symm h
    · rw [Function.update_of_ne ht] at h
      exact hp.inCall i c h
  notFull := fun u => by
    rw [notFull, hp.notFull, call]
    by_cases hu : u = t
    · rw [hu, Function.update_self]
      exact ⟨fun ⟨a, task, h⟩ => absurd h (before a task), fun ⟨a, task, h⟩ => absurd h (after a task)⟩
    · rw [Function.update_of_ne hu]
  notFullNodup := notFull ▸ hp.notFullNodup
  notEmpty := by rw [notEmpty, worker]; exact hp.notEmpty
  notEmptyNodup := notEmpty ▸ hp.notEmptyNodup
  joined := by rw [main, worker]; exact hp.joined
  joinedLe := main ▸ hp.joinedLe
  subMutex := fun h => main ▸ hp.subMutex (subMutex h)
  queueMutex := fun h => main ▸ hp.queueMutex (queueMutex h)

/-- A worker moves in its loop, not from or to a wait. -/
theorem Pos.work (hp : Pos s) {i : Worker} {w : WorkerPc}
    (worker : s'.worker = Function.update s.worker i w)
    (idle : s.call (.worker i) = none) (before : s.worker i ≠ .wait) (after : w ≠ .wait)
    (alive : s.worker i ≠ .exited) (call : s'.call = s.call) (notFull : s'.notFull = s.notFull)
    (notEmpty : s'.notEmpty = s.notEmpty) (main : s'.main = s.main)
    (subMutex : s'.subMutex = s.subMutex)
    (queueMutex : s'.queueMutex = .destroyed → s.queueMutex = .destroyed) : Pos s' where
  inCall := fun j c h => by
    rw [call] at h
    rw [worker]
    by_cases hj : j = i
    · rw [hj, idle] at h; cases h
    · rw [Function.update_of_ne hj]; exact hp.inCall j c h
  notFull := by rw [notFull, call]; exact hp.notFull
  notFullNodup := notFull ▸ hp.notFullNodup
  notEmpty := fun j => by
    rw [notEmpty, hp.notEmpty, worker]
    by_cases hj : j = i
    · rw [hj, Function.update_self]
      exact ⟨fun h => absurd h before, fun h => absurd h after⟩
    · rw [Function.update_of_ne hj]
  notEmptyNodup := notEmpty ▸ hp.notEmptyNodup
  joined := fun j hj => by
    rw [main] at hj
    rw [worker]
    by_cases he : j = i
    · exact absurd (he ▸ hp.joined j hj) alive
    · rw [Function.update_of_ne he]; exact hp.joined j hj
  joinedLe := main ▸ hp.joinedLe
  subMutex := fun h => main ▸ hp.subMutex (subMutex ▸ h)
  queueMutex := fun h => main ▸ hp.queueMutex (queueMutex h)

/-- A thread goes to sleep on `cond_not_full`. -/
theorem Pos.sleepCaller (hp : Pos s) {t : Caller κ} {a : PublishArgs} {task : Task}
    (at_ : s.call t = some (.enqueueTest a task)) :
    Pos ({ s with queueMutex := s.queueMutex.unlock, notFull := s.notFull ++ [t] }.goto t
      (.enqueueWait a task)) where
  inCall := fun i c h => by
    show (s.worker i).isRunning = true
    change Function.update s.call t _ (.worker i) = some c at h
    by_cases ht : Caller.worker i = t
    · exact hp.inCall i _ (ht ▸ at_)
    · rw [Function.update_of_ne ht] at h; exact hp.inCall i c h
  notFull := fun u => by
    show u ∈ s.notFull ++ [t] ↔ ∃ a' task', Function.update s.call t _ u = _
    rw [List.mem_append, List.mem_singleton, hp.notFull]
    by_cases hu : u = t
    · rw [hu, Function.update_self]
      exact ⟨fun _ => ⟨a, task, rfl⟩, fun _ => .inr rfl⟩
    · rw [Function.update_of_ne hu]
      exact or_iff_left hu
  notFullNodup := by
    show (s.notFull ++ [t]).Nodup
    refine List.nodup_append.mpr ⟨hp.notFullNodup, List.nodup_singleton t, fun u hu v hv e => ?_⟩
    obtain rfl := List.mem_singleton.mp hv
    obtain ⟨a', task', h⟩ := (hp.notFull u).mp hu
    rw [e, at_] at h
    cases h
  notEmpty := hp.notEmpty
  notEmptyNodup := hp.notEmptyNodup
  joined := hp.joined
  joinedLe := hp.joinedLe
  subMutex := hp.subMutex
  queueMutex := fun h => hp.queueMutex (Mutex.destroyed_of_unlock h)

/-- A thread asleep on `cond_not_full` wakes up. -/
theorem Pos.wakeCaller (hp : Pos s) {t : Caller κ} (ht : t ∈ s.notFull) :
    Pos ({ s with notFull := s.notFull.erase t }.wakeCaller (some t)) := by
  obtain ⟨a, task, hc⟩ := (hp.notFull t).mp ht
  rw [@wakeCaller_eq κ _ { s with notFull := s.notFull.erase t } t a task hc]
  exact {
    inCall := fun i c h => by
      show (s.worker i).isRunning = true
      change Function.update s.call t _ (.worker i) = some c at h
      by_cases he : Caller.worker i = t
      · exact hp.inCall i _ (he ▸ hc)
      · rw [Function.update_of_ne he] at h; exact hp.inCall i c h
    notFull := fun u => by
      show u ∈ s.notFull.erase t ↔ ∃ a' task', Function.update s.call t _ u = _
      rw [hp.notFullNodup.mem_erase_iff, hp.notFull]
      by_cases hu : u = t
      · rw [hu, Function.update_self]
        exact ⟨fun h => absurd rfl h.1, fun ⟨_, _, h⟩ => nomatch h⟩
      · rw [Function.update_of_ne hu]
        exact and_iff_right hu
    notFullNodup := hp.notFullNodup.erase t
    notEmpty := hp.notEmpty
    notEmptyNodup := hp.notEmptyNodup
    joined := hp.joined
    joinedLe := hp.joinedLe
    subMutex := hp.subMutex
    queueMutex := hp.queueMutex }

/-- A worker goes to sleep on `cond_not_empty`. -/
theorem Pos.sleepWorker (hp : Pos s) {i : Worker} (at_ : s.worker i = .test) :
    Pos ({ s with queueMutex := s.queueMutex.unlock
                  notEmpty := s.notEmpty ++ [i] }.gotoWorker i .wait) where
  inCall := fun j c h => by
    show (Function.update s.worker i _ j).isRunning = true
    have hr := hp.inCall j c h
    by_cases hj : j = i
    · rw [hj, at_] at hr; cases hr
    · rw [Function.update_of_ne hj]; exact hr
  notFull := hp.notFull
  notFullNodup := hp.notFullNodup
  notEmpty := fun j => by
    show j ∈ s.notEmpty ++ [i] ↔ Function.update s.worker i _ j = _
    rw [List.mem_append, List.mem_singleton, hp.notEmpty]
    by_cases hj : j = i
    · rw [hj, Function.update_self]
      exact ⟨fun _ => rfl, fun _ => .inr rfl⟩
    · rw [Function.update_of_ne hj]
      exact or_iff_left hj
  notEmptyNodup := by
    show (s.notEmpty ++ [i]).Nodup
    refine List.nodup_append.mpr ⟨hp.notEmptyNodup, List.nodup_singleton i, fun u hu v hv e => ?_⟩
    obtain rfl := List.mem_singleton.mp hv
    have h := (hp.notEmpty u).mp hu
    rw [e, at_] at h
    cases h
  joined := fun j hj => by
    show Function.update s.worker i _ j = _
    by_cases he : j = i
    · have h := hp.joined j hj
      rw [he, at_] at h
      cases h
    · rw [Function.update_of_ne he]; exact hp.joined j hj
  joinedLe := hp.joinedLe
  subMutex := hp.subMutex
  queueMutex := fun h => hp.queueMutex (Mutex.destroyed_of_unlock h)

/-- A worker asleep on `cond_not_empty` wakes up. -/
theorem Pos.wakeWorker (hp : Pos s) {i : Worker} (hi : i ∈ s.notEmpty) :
    Pos ({ s with notEmpty := s.notEmpty.erase i }.wakeWorker (some i)) := by
  have hw : s.worker i = .wait := (hp.notEmpty i).mp hi
  exact {
    inCall := fun j c h => by
      show (Function.update s.worker i _ j).isRunning = true
      have hr := hp.inCall j c h
      by_cases hj : j = i
      · rw [hj, hw] at hr; cases hr
      · rw [Function.update_of_ne hj]; exact hr
    notFull := hp.notFull
    notFullNodup := hp.notFullNodup
    notEmpty := fun j => by
      show j ∈ s.notEmpty.erase i ↔ Function.update s.worker i _ j = _
      rw [hp.notEmptyNodup.mem_erase_iff, hp.notEmpty]
      by_cases hj : j = i
      · rw [hj, Function.update_self]
        exact ⟨fun h => absurd rfl h.1, fun h => nomatch h⟩
      · rw [Function.update_of_ne hj]
        exact and_iff_right hj
    notEmptyNodup := hp.notEmptyNodup.erase i
    joined := fun j hj => by
      show Function.update s.worker i _ j = _
      by_cases he : j = i
      · have h := hp.joined j hj
        rw [he, hw] at h
        cases h
      · rw [Function.update_of_ne he]; exact hp.joined j hj
    joinedLe := hp.joinedLe
    subMutex := hp.subMutex
    queueMutex := hp.queueMutex }

/-- A quiet move of a bus call. -/
theorem Pos.quiet (hp : Pos s) {t : Caller κ} {next : Option CallPc} (hq : Quiet s s' t next)
    (before : ∀ c, s.call t = some c → c.enqueues = false)
    (inCall : ∀ i, t = .worker i → (s.worker i).isRunning = true)
    (subMutex : s'.subMutex = .destroyed → s.subMutex = .destroyed) : Pos s' := by
  refine hp.caller hq.call (fun a task h => ?_) (fun a task h => ?_) (fun i _ ht _ => inCall i ht)
    (congrArg Core.worker hq.core) (congrArg Core.notFull hq.core)
    (congrArg Core.notEmpty hq.core) (congrArg Core.main hq.core) subMutex
    (fun h => by rw [← h]; exact (congrArg Core.queueMutex hq.core).symm)
  · exact CallPc.ne_wait_of_enqueues (before _ h) a task rfl
  · exact CallPc.ne_wait_of_enqueues (hq.outside _ h) a task rfl

/-- `bus_shutdown` goes on. -/
theorem Pos.main (hp : Pos s) (call : s'.call = s.call) (worker : s'.worker = s.worker)
    (notFull : s'.notFull = s.notFull) (notEmpty : s'.notEmpty = s.notEmpty)
    (joined : ∀ i : Worker, i.val < s'.main.joined → s.worker i = .exited)
    (joinedLe : s'.main.joined ≤ MAX_INIT_EVENT_BUS_THREADS)
    (subMutex : s'.subMutex = .destroyed → s'.main = .done)
    (queueMutex : s'.queueMutex = .destroyed → s'.main.joined = MAX_INIT_EVENT_BUS_THREADS) :
    Pos s' where
  inCall := by rw [call, worker]; exact hp.inCall
  notFull := by rw [notFull, call]; exact hp.notFull
  notFullNodup := notFull ▸ hp.notFullNodup
  notEmpty := by rw [notEmpty, worker]; exact hp.notEmpty
  notEmptyNodup := notEmpty ▸ hp.notEmptyNodup
  joined := by rw [worker]; exact joined
  joinedLe := joinedLe
  subMutex := subMutex
  queueMutex := queueMutex

/-- The broadcast of `bus_shutdown` wakes all workers that sleep. -/
theorem Pos.broadcast (hp : Pos s) (hm : s.main = .broadcast) :
    Pos { s with shutDown := true
                 notEmpty := []
                 worker := fun i => if i ∈ s.notEmpty then .lock else s.worker i
                 main := .unlock } where
  inCall := fun i c h => by
    show (if i ∈ s.notEmpty then WorkerPc.lock else s.worker i).isRunning = true
    have hr := hp.inCall i c h
    rw [if_neg fun hi => ?_]
    · exact hr
    · rw [(hp.notEmpty i).mp hi] at hr; cases hr
  notFull := hp.notFull
  notFullNodup := hp.notFullNodup
  notEmpty := fun i => by
    show i ∈ [] ↔ (if i ∈ s.notEmpty then WorkerPc.lock else s.worker i) = .wait
    refine iff_of_false List.not_mem_nil fun h => ?_
    split at h
    · cases h
    · rename_i hn
      exact hn ((hp.notEmpty i).mpr h)
  notEmptyNodup := List.nodup_nil
  joined := fun i h => absurd h (Nat.not_lt_zero _)
  joinedLe := Nat.zero_le _
  subMutex := fun h => by
    have := hp.subMutex h
    rw [hm] at this
    cases this
  queueMutex := fun h => by
    have := hp.queueMutex h
    rw [hm] at this
    cases this

end Keeps

theorem isOutside_call {s : State κ} {t : Caller κ} (h : s.isOutside t = true) :
    s.call t = none := by
  unfold State.isOutside at h
  exact of_decide_eq_true (Bool.and_eq_true_iff.mp h).1

theorem isOutside_running {s : State κ} {i : Worker} (h : s.isOutside (.worker i) = true) :
    (s.worker i).isRunning = true := by
  unfold State.isOutside at h
  exact (Bool.and_eq_true_iff.mp h).2

/-- A worker that is in a bus call or in its own code is in its callback. -/
theorem Pos.running {s : State κ} (hp : Pos s) {i : Worker}
    (h : (∃ c, s.call (.worker i) = some c) ∨ s.isOutside (.worker i) = true) :
    ∃ task, s.worker i = .running task := by
  have hr : (s.worker i).isRunning = true := by
    rcases h with ⟨c, hc⟩ | h
    · exact hp.inCall i c hc
    · exact isOutside_running h
  cases hw : s.worker i with
  | running task => exact ⟨task, rfl⟩
  | _ => rw [hw] at hr; cases hr

/-- A crash in a callback. -/
theorem recover_worker {s : State κ} {i : Worker} {task : Task} (h : s.worker i = .running task) :
    s.recover (.worker i) =
      { s with call := Function.update s.call (.worker i) none }.gotoWorker i (.recover task) := by
  simp only [State.recover, h]

theorem CallPc.enqueues_of_atSub {c : CallPc} (h : c.atSub = true) : c.enqueues = false := by
  cases c <;> first | rfl | cases h

theorem CallPc.enqueues_of_holdsSub {c : CallPc} (h : c.holdsSub = false) : c.enqueues = false := by
  cases c <;> first | rfl | cases h

/-- A crash leaves the bus, and takes a worker to its recovery. -/
theorem Pos.recover {s : State κ} (hp : Pos s) {t : Caller κ}
    (before : ∀ a task, s.call t ≠ some (.enqueueWait a task)) : Pos (s.recover t) := by
  have out : Pos { s with call := Function.update s.call t none } :=
    hp.caller rfl before (fun _ _ h => nomatch h) (fun _ _ _ h => nomatch h) rfl rfl rfl rfl
      (fun h => h) fun h => h
  cases t with
  | client k => exact out
  | worker i =>
    cases hw : s.worker i with
    | running task =>
      simp only [State.recover, hw]
      refine out.work rfl ?_ ?_ (fun h => by cases h) ?_ rfl rfl rfl rfl rfl fun h => h
      · exact Function.update_self _ _ _
      · show s.worker i ≠ .wait
        rw [hw]
        exact fun h => by cases h
      · show s.worker i ≠ .exited
        rw [hw]
        exact fun h => by cases h
    | _ => simp only [State.recover, hw]; exact hp

theorem CallMove.pos {s s' : State κ} (hp : Pos s) {t : Caller κ} {o : Outcome} {c : CallPc}
    (at_ : s.call t = some c) (move : CallMove s t o c s') : Pos s' := by
  have running : ∀ i, t = .worker i → (s.worker i).isRunning = true := fun i ht =>
    hp.inCall i c (ht ▸ at_)
  have from_ : c.enqueues = false → ∀ c', s.call t = some c' → c'.enqueues = false :=
    fun h c' hc' => by rw [at_, Option.some.injEq] at hc'; exact hc' ▸ h
  cases move with
  | lockSub quiet atSub _ _ _ mutex =>
    exact hp.quiet quiet (from_ (CallPc.enqueues_of_atSub atSub)) running
      (Mutex.destroyed_of_lock mutex)
  | inside quiet _ out _ _ mutex =>
    exact hp.quiet quiet (from_ out) running fun h => mutex ▸ h
  | copies =>
    exact hp.caller rfl (fun _ _ h => by rw [at_] at h; cases h) (fun _ _ h => by cases h)
      (fun i _ ht _ => running i ht) rfl rfl rfl rfl (fun h => h) fun h => h
  | unlockSub quiet _ out _ mutex =>
    exact hp.quiet quiet (from_ out) running fun h => Mutex.destroyed_of_unlock (mutex ▸ h)
  | outside quiet before _ _ _ _ mutex =>
    exact hp.quiet quiet (from_ (CallPc.enqueues_of_holdsSub before)) running fun h => mutex ▸ h
  | enqueueLock mutex =>
    exact hp.caller rfl (fun _ _ h => by rw [at_] at h; cases h) (fun _ _ h => by cases h)
      (fun i _ ht _ => running i ht) rfl rfl rfl rfl (fun h => h) (Mutex.destroyed_of_lock mutex)
  | sleep => exact hp.sleepCaller at_
  | refuse =>
    exact hp.caller rfl (fun _ _ h => by rw [at_] at h; cases h) (fun _ _ h => by cases h)
      (fun i _ ht _ => running i ht) rfl rfl rfl rfl (fun h => h) fun h => h
  | push room up wake =>
    rcases signal_cases wake with ⟨he, rfl, rfl⟩ | ⟨j, hj, rfl, rfl⟩
    · exact hp.caller rfl (fun _ _ h => by rw [at_] at h; cases h) (fun _ _ h => by cases h)
        (fun i _ ht _ => running i ht) rfl rfl he.symm rfl (fun h => h) fun h => h
    · refine (hp.wakeWorker hj).caller rfl (fun _ _ h => ?_) (fun _ _ h => by cases h)
        (fun i _ ht _ => ?_) rfl rfl rfl rfl (fun h => h) fun h => h
      · change s.call t = _ at h
        rw [at_] at h; cases h
      · exact (hp.wakeWorker hj).inCall i _ (ht ▸ at_)
  | enqueueUnlock =>
    exact hp.caller rfl (fun _ _ h => by rw [at_] at h; cases h) (fun _ _ h => by cases h)
      (fun i _ ht _ => running i ht) rfl rfl rfl rfl (fun h => h) Mutex.destroyed_of_unlock

theorem WorkMove.pos {s s' : State κ} (hp : Pos s) {i : Worker} {o : Outcome} {w : WorkerPc}
    (at_ : s.worker i = w) (move : WorkMove s i o w s') : Pos s' := by
  -- All moves but the two that sleep or wake a caller move one worker in its loop.
  have go : ∀ {s₁ : State κ} (w' : WorkerPc), w.isRunning = false → w ≠ .wait → w ≠ .exited →
      w' ≠ .wait → s₁.worker = Function.update s.worker i w' → s₁.call = s.call →
      s₁.notFull = s.notFull → s₁.notEmpty = s.notEmpty → s₁.main = s.main →
      s₁.subMutex = s.subMutex → (s₁.queueMutex = .destroyed → s.queueMutex = .destroyed) →
      Pos s₁ := fun w' hr hw hx hw' h₁ h₂ h₃ h₄ h₅ h₆ h₇ =>
    hp.work h₁ (hp.call_none (at_ ▸ hr)) (at_ ▸ hw) hw' (at_ ▸ hx) h₂ h₃ h₄ h₅ h₆ h₇
  cases move with
  | lock mutex =>
    exact go .test rfl nofun nofun nofun rfl rfl rfl rfl rfl rfl (Mutex.destroyed_of_lock mutex)
  | sleep => exact hp.sleepWorker at_
  | drained => exact go .leave rfl nofun nofun nofun rfl rfl rfl rfl rfl rfl fun h => h
  | pop nonempty wake =>
    rcases signal_cases wake with ⟨he, rfl, rfl⟩ | ⟨t, ht, rfl, rfl⟩
    · exact go (.unlock _) rfl nofun nofun nofun rfl rfl he.symm rfl rfl rfl fun h => h
    · have hwake := hp.wakeCaller ht
      obtain ⟨a, task, hc⟩ := (hp.notFull t).mp ht
      rw [@wakeCaller_eq κ _ { s with notFull := s.notFull.erase t } t a task hc] at hwake
      rw [@wakeCaller_eq κ _ { s with queue := s.queue.pop MAX_TASKS
                                      taken := s.taken ++ [(i, s.queue.front)]
                                      notFull := s.notFull.erase t } t a task hc]
      have hw : s.worker i = .test := at_
      refine hwake.work rfl (hwake.call_none ?_) ?_ nofun ?_ rfl rfl rfl rfl rfl fun h => h
      · show (s.worker i).isRunning = false
        rw [hw]; rfl
      · show s.worker i ≠ .wait
        rw [hw]; exact nofun
      · show s.worker i ≠ .exited
        rw [hw]; exact nofun
  | unlock => exact go (.dispatch _) rfl nofun nofun nofun rfl rfl rfl rfl rfl rfl Mutex.destroyed_of_unlock
  | dispatch => exact go (.running _) rfl nofun nofun nofun rfl rfl rfl rfl rfl rfl fun h => h
  | skip => exact go (.freeing _) rfl nofun nofun nofun rfl rfl rfl rfl rfl rfl fun h => h
  | recover => exact go .lock rfl nofun nofun nofun rfl rfl rfl rfl rfl rfl fun h => h
  | free => exact go .lock rfl nofun nofun nofun rfl rfl rfl rfl rfl rfl fun h => h
  | exit => exact go .exited rfl nofun nofun nofun rfl rfl rfl rfl rfl rfl Mutex.destroyed_of_unlock

theorem mainStep_pos {s s' : State κ} (hp : Pos s) (h : mainStep s = some s') : Pos s' := by
  have subFree : s.main ≠ .done → s.subMutex ≠ .destroyed := fun h hd => h (hp.subMutex hd)
  have all : s.main.joined = MAX_INIT_EVENT_BUS_THREADS → ∀ i : Worker, s.worker i = .exited :=
    fun hj i => hp.joined i (by rw [hj]; exact i.isLt)
  have queueFree : s.main.joined ≠ MAX_INIT_EVENT_BUS_THREADS → s.queueMutex ≠ .destroyed :=
    fun h hd => h (hp.queueMutex hd)
  have move := mainStep_moves h
  generalize hm : s.main = m at move subFree all queueFree
  cases move with
  | lock mutex =>
    exact hp.main rfl rfl rfl rfl (fun i h => absurd h (Nat.not_lt_zero _)) (Nat.zero_le _)
      (fun h => absurd h (subFree nofun))
      fun h => absurd (Mutex.destroyed_of_lock mutex h) (queueFree (by decide))
  | broadcast => exact hp.broadcast hm
  | unlock =>
    exact hp.main rfl rfl rfl rfl (fun i h => absurd h (Nat.not_lt_zero _)) (Nat.zero_le _)
      (fun h => absurd h (subFree nofun))
      fun h => absurd (Mutex.destroyed_of_unlock h) (queueFree (by decide))
  | @join i exited =>
    refine hp.main rfl rfl rfl rfl (fun j hj => ?_) i.isLt (fun h => absurd h (subFree nofun))
      fun h => absurd h (queueFree (Nat.ne_of_lt i.isLt))
    rcases Nat.lt_succ_iff_lt_or_eq.mp hj with hj | hj
    · exact hp.joined j (by rw [hm]; exact hj)
    · exact (Fin.ext hj : j = i) ▸ exited
  | @joined n le =>
    have he : n = MAX_INIT_EVENT_BUS_THREADS := by
      have hle := hp.joinedLe
      rw [hm] at hle
      exact Nat.le_antisymm hle le
    exact hp.main rfl rfl rfl rfl (fun i _ => all he i) (Nat.le_refl _)
      (fun h => absurd h (subFree nofun)) fun _ => rfl
  | drain | destroyQueue | freeSubs =>
    exact hp.main rfl rfl rfl rfl (fun i _ => all rfl i) (Nat.le_refl _)
      (fun h => absurd h (subFree nofun)) fun _ => rfl
  | subLock mutex =>
    exact hp.main rfl rfl rfl rfl (fun i _ => all rfl i) (Nat.le_refl _)
      (fun h => absurd (Mutex.destroyed_of_lock mutex h) (subFree nofun)) fun _ => rfl
  | subUnlock =>
    exact hp.main rfl rfl rfl rfl (fun i _ => all rfl i) (Nat.le_refl _)
      (fun h => absurd (Mutex.destroyed_of_unlock h) (subFree nofun)) fun _ => rfl
  | destroySub =>
    exact hp.main rfl rfl rfl rfl (fun i _ => all rfl i) (Nat.le_refl _) (fun _ => rfl) fun _ => rfl

theorem faults_ne_wait {s : State κ} {c : CallPc} (h : faults s c = true) :
    c.enqueues = false := by
  cases c <;> first | rfl | cases h

/-- Every step keeps the positions. -/
theorem pos_keeps : (bus κ).Keeps (fun _ _ => True) Pos := by
  intro s l s' hp _ h
  cases step_moves h with
  | call outside up quiet mutex =>
    refine hp.quiet quiet (fun c hc => ?_) (fun i ht => isOutside_running (ht ▸ outside))
      fun h => mutex ▸ h
    rw [isOutside_call outside] at hc
    cases hc
  | go at_ move => exact move.pos hp at_
  | work move => exact move.pos hp rfl
  | ret running outside =>
    exact hp.work rfl outside (by rw [running]; exact nofun) nofun (by rw [running]; exact nofun)
      rfl rfl rfl rfl rfl fun h => h
  | crashIn at_ fault =>
    refine hp.recover fun a task h => ?_
    rw [at_, Option.some.injEq] at h
    exact CallPc.ne_wait_of_enqueues (faults_ne_wait fault) a task h
  | crashOut outside =>
    exact hp.recover fun a task h => by rw [isOutside_call outside] at h; cases h
  | wakeCaller asleep => exact hp.wakeCaller asleep
  | wakeWorker asleep => exact hp.wakeWorker asleep
  | shutdown idle =>
    refine hp.main rfl rfl rfl rfl (fun i h => absurd h (Nat.not_lt_zero _)) (Nat.zero_le _)
      (fun h => ?_) fun h => ?_
    · rw [hp.subMutex h] at idle; cases idle
    · have := hp.queueMutex h
      rw [idle] at this
      cases this
  | main step => exact mainStep_pos hp step

end EventBus
end CoreCDTL
