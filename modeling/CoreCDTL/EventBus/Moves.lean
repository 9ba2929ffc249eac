import CoreCDTL.EventBus.Model
import Mathlib.Order.Fin.Basic

/-!
# The moves of the event bus

What a step of a thread can do, as relations: `CallMove` for bus calls, `WorkMove` for the workers,
`MainMove` for `bus_shutdown`, `Move` for all labels. Steps of a bus call that do not touch the queue
differ only in what they do to `sub_mutex`; `Quiet` says that the rest of the state (`core`) stays.
`step_moves` is the inversion that every invariant proof starts from.
-/

namespace CoreCDTL
namespace EventBus

/-! ## Positions -/

/-- In the critical section of `sub_mutex`. -/
def CallPc.holdsSub : CallPc → Bool
  | publishSearch _ | publishCopy _ _ | publishMiss _ | publishUnlock _ | enqueueLock _ _
  | enqueueTest _ _ | enqueueWait _ _ | enqueueUnlock | subscribeInsert _ | subscribeUnlock _ =>
    true
  | _ => false

/-- In the critical section of the queue's mutex. -/
def CallPc.holdsQueue : CallPc → Bool
  | enqueueTest _ _ | enqueueUnlock => true
  | _ => false

/-- In `enqueue_task`. -/
def CallPc.enqueues : CallPc → Bool
  | enqueueLock _ _ | enqueueTest _ _ | enqueueWait _ _ | enqueueUnlock => true
  | _ => false

/-- At the lock of `sub_mutex`. -/
def CallPc.atSub : CallPc → Bool
  | publishLock _ | subscribeLock _ => true
  | _ => false

/-- The task that the call is about to enqueue. -/
def CallPc.pending : CallPc → Option (PublishArgs × Task)
  | enqueueLock a task | enqueueTest a task | enqueueWait a task => some (a, task)
  | _ => none

def WorkerPc.holdsQueue : WorkerPc → Bool
  | test | unlock _ | leave => true
  | _ => false

def MainPc.holdsSub : MainPc → Bool
  | freeSubs | subUnlock => true
  | _ => false

def MainPc.holdsQueue : MainPc → Bool
  | broadcast | unlock => true
  | _ => false

theorem CallPc.holdsQueue_of_enqueues {c : CallPc} (h : c.enqueues = false) :
    c.holdsQueue = false := by cases c <;> first | rfl | cases h

theorem CallPc.pending_of_enqueues {c : CallPc} (h : c.enqueues = false) : c.pending = none := by
  cases c <;> first | rfl | cases h

theorem CallPc.ne_wait_of_enqueues {c : CallPc} (h : c.enqueues = false) (a : PublishArgs)
    (task : Task) : c ≠ .enqueueWait a task := by
  rintro rfl
  cases h

theorem WorkerPc.holdsQueue_of_isRunning {w : WorkerPc} (h : w.isRunning = true) :
    w.holdsQueue = false := by cases w <;> first | rfl | cases h

/-- The subscription is one that the publish is for. -/
def Matches (a : PublishArgs) (it : Sub) : Prop :=
  it.pluginId = a.pluginId ∧ a.event = .obj it.event

theorem search_found {pluginId : Nat} {event : Ptr CStr} {subs : List Sub} {it : Sub}
    (h : search pluginId event subs = .found it) :
    it ∈ subs ∧ it.pluginId = pluginId ∧ event = .obj it.event := by
  induction subs with
  | nil => cases h
  | cons x rest ih =>
    have tail : search pluginId event rest = .found it →
        it ∈ x :: rest ∧ it.pluginId = pluginId ∧ event = .obj it.event :=
      fun h => ⟨List.mem_cons_of_mem x (ih h).1, (ih h).2⟩
    unfold search at h
    split at h
    · rename_i hp
      cases event with
      | null => cases h
      | bad => cases h
      | obj e =>
        simp only at h
        split at h
        · rename_i he
          cases h
          exact ⟨List.mem_cons_self, hp, he ▸ rfl⟩
        · exact tail h
    · exact tail h

/-- The position after the start of a call, `none` when it returns at once. -/
def BusCall.first : BusCall → Option CallPc
  | publish a =>
    if a.pluginId = 0 ∨ a.data = .null ∨ a.len = 0 then none else some (.publishLock a)
  | subscribe a =>
    if a.event = .null then none else a.cb.map (.subscribeAlloc a)

theorem BusCall.first_some {c : BusCall} {n : CallPc} (h : c.first = some n) :
    (∃ a, n = .publishLock a) ∨ ∃ a cb, n = .subscribeAlloc a cb := by
  cases c with
  | publish a =>
    simp only [BusCall.first] at h
    split at h
    · cases h
    · exact .inl ⟨a, (Option.some.inj h).symm⟩
  | subscribe a =>
    simp only [BusCall.first] at h
    split at h
    · cases h
    · obtain ⟨cb, -, rfl⟩ := Option.map_eq_some_iff.mp h
      exact .inr ⟨a, cb, rfl⟩

/-! ## Moves -/

variable {κ : Type} [DecidableEq κ]

/-- The part of the state that only the queue's users and the workers change. -/
structure Core (κ : Type) where
  worker : Worker → WorkerPc
  main : MainPc
  queue : Ring Task
  queueMutex : Mutex (Thread κ)
  notEmpty : List Worker
  notFull : List (Caller κ)
  shutDown : Bool
  entered : List (PublishArgs × Task)
  taken : List (Worker × Task)
  called : List Task
  freed : List Nat

def State.core (s : State κ) : Core κ where
  worker := s.worker
  main := s.main
  queue := s.queue
  queueMutex := s.queueMutex
  notEmpty := s.notEmpty
  notFull := s.notFull
  shutDown := s.shutDown
  entered := s.entered
  taken := s.taken
  called := s.called
  freed := s.freed

/-- The caller `t` moves to `next` (`none`: out of the bus) and the core stays. -/
structure Quiet (s s' : State κ) (t : Caller κ) (next : Option CallPc) : Prop where
  core : s'.core = s.core
  call : s'.call = Function.update s.call t next
  outside : ∀ n ∈ next, n.enqueues = false

/-- The steps of a bus call from the position `c`. -/
inductive CallMove (s : State κ) (t : Caller κ) (o : Outcome) : CallPc → State κ → Prop where
  | lockSub {c n : CallPc} {s' : State κ} (quiet : Quiet s s' t (some n)) (atSub : c.atSub = true)
      (inside : n.holdsSub = true) (leaves : n.atSub = false)
      (found : ∀ a it, n ≠ .publishCopy a it)
      (mutex : s.subMutex.lock (.caller t) = some s'.subMutex)
      (buffers : s'.buffers = s.buffers) : CallMove s t o c s'
  | inside {c n : CallPc} {s' : State κ} (quiet : Quiet s s' t (some n))
      (before : c.holdsSub = true) (out : c.enqueues = false) (after : n.holdsSub = true)
      (found : ∀ a it, n = .publishCopy a it → Matches a it)
      (mutex : s'.subMutex = s.subMutex) (buffers : s'.buffers = s.buffers) : CallMove s t o c s'
  | copies {a : PublishArgs} {it : Sub} {bytes : List UInt8}
      (bytes_eq : readable a.data a.len = some bytes) :
      CallMove s t o (.publishCopy a it) ({ s with buffers := s.buffers + 1 }.goto t
        (.enqueueLock a ⟨some ⟨s.buffers, bytes⟩, a.len, some it⟩))
  | unlockSub {c : CallPc} {next : Option CallPc} {s' : State κ} (quiet : Quiet s s' t next)
      (before : c.holdsSub = true) (out : c.enqueues = false)
      (after : ∀ n ∈ next, n.holdsSub = false ∧ n.atSub = false)
      (mutex : s'.subMutex = s.subMutex.unlock) (buffers : s'.buffers = s.buffers) :
      CallMove s t o c s'
  | outside {c : CallPc} {next : Option CallPc} {s' : State κ} (quiet : Quiet s s' t next)
      (before : c.holdsSub = false) (notAt : c.atSub = false)
      (after : ∀ n ∈ next, n.holdsSub = false)
      (arrives : (∃ n ∈ next, n.atSub = true) → ∃ a cb e, c = .subscribeAlloc a cb ∧
        a.event = .obj e ∧ o.malloc = true ∧ o.strdup = true)
      (stays : ∀ a cb e, c = .subscribeAlloc a cb → a.event = .obj e → o.malloc = true →
        o.strdup = true → ∃ n ∈ next, n.atSub = true)
      (mutex : s'.subMutex = s.subMutex) (buffers : s'.buffers = s.buffers) : CallMove s t o c s'
  | enqueueLock {a : PublishArgs} {task : Task} {m : Mutex (Thread κ)}
      (mutex : s.queueMutex.lock (.caller t) = some m) :
      CallMove s t o (.enqueueLock a task)
        ({ s with queueMutex := m }.goto t (.enqueueTest a task))
  | sleep {a : PublishArgs} {task : Task} (full : s.queue.count = MAX_TASKS)
      (up : s.shutDown = false) :
      CallMove s t o (.enqueueTest a task)
        ({ s with queueMutex := s.queueMutex.unlock, notFull := s.notFull ++ [t] }.goto t
          (.enqueueWait a task))
  | refuse {a : PublishArgs} {task : Task} (down : s.shutDown = true) :
      CallMove s t o (.enqueueTest a task) (s.goto t .enqueueUnlock)
  | push {a : PublishArgs} {task : Task} {i : Option Worker} {rest : List Worker}
      (room : s.queue.count ≠ MAX_TASKS) (up : s.shutDown = false)
      (wake : signal s.notEmpty o.wake = some (i, rest)) :
      CallMove s t o (.enqueueTest a task)
        (({ s with queue := s.queue.push MAX_TASKS task
                   entered := s.entered ++ [(a, task)]
                   notEmpty := rest }.wakeWorker i).goto t .enqueueUnlock)
  | enqueueUnlock :
      CallMove s t o .enqueueUnlock
        ({ s with queueMutex := s.queueMutex.unlock }.goto t (.publishUnlock 0))

/-- The steps of a worker from the position `w`. -/
inductive WorkMove (s : State κ) (i : Worker) (o : Outcome) : WorkerPc → State κ → Prop where
  | lock {m : Mutex (Thread κ)} (mutex : s.queueMutex.lock (.caller (.worker i)) = some m) :
      WorkMove s i o .lock ({ s with queueMutex := m }.gotoWorker i .test)
  | sleep (empty : s.queue.count = 0) (up : s.shutDown = false) :
      WorkMove s i o .test ({ s with queueMutex := s.queueMutex.unlock
                                     notEmpty := s.notEmpty ++ [i] }.gotoWorker i .wait)
  | drained (empty : s.queue.count = 0) (down : s.shutDown = true) :
      WorkMove s i o .test (s.gotoWorker i .leave)
  | pop {t : Option (Caller κ)} {rest : List (Caller κ)} (nonempty : s.queue.count ≠ 0)
      (wake : signal s.notFull o.wake = some (t, rest)) :
      WorkMove s i o .test
        (({ s with queue := s.queue.pop MAX_TASKS
                   taken := s.taken ++ [(i, s.queue.front)]
                   notFull := rest }.wakeCaller t).gotoWorker i (.unlock s.queue.front))
  | unlock {task : Task} :
      WorkMove s i o (.unlock task)
        ({ s with queueMutex := s.queueMutex.unlock }.gotoWorker i (.dispatch task))
  | dispatch {task : Task} {it : Sub} (sub : task.subPtr = some it) :
      WorkMove s i o (.dispatch task)
        ({ s with called := s.called ++ [task] }.gotoWorker i (.running task))
  | skip {task : Task} (sub : task.subPtr = none) :
      WorkMove s i o (.dispatch task) (s.gotoWorker i (.freeing task))
  | recover {task : Task} {it : Sub} (sub : task.subPtr = some it) :
      WorkMove s i o (.recover task)
        (({ s with errors := s.errors ++ [(it.pluginId, it.event)] }.freeData task).gotoWorker i
          .lock)
  | free {task : Task} : WorkMove s i o (.freeing task) ((s.freeData task).gotoWorker i .lock)
  | exit : WorkMove s i o .leave
      ({ s with queueMutex := s.queueMutex.unlock }.gotoWorker i .exited)

/-- The steps of `bus_shutdown`. -/
inductive MainMove (s : State κ) : MainPc → State κ → Prop where
  | lock {m : Mutex (Thread κ)} (mutex : s.queueMutex.lock .main = some m) :
      MainMove s .lock { s with queueMutex := m, main := .broadcast }
  | broadcast :
      MainMove s .broadcast { s with shutDown := true
                                     notEmpty := []
                                     worker := fun i => if i ∈ s.notEmpty then .lock else s.worker i
                                     main := .unlock }
  | unlock : MainMove s .unlock { s with queueMutex := s.queueMutex.unlock, main := .join 0 }
  | join {i : Worker} (exited : s.worker i = .exited) :
      MainMove s (.join i) { s with main := .join (i + 1) }
  | joined {n : Nat} (all : MAX_INIT_EVENT_BUS_THREADS ≤ n) :
      MainMove s (.join n) { s with main := .drain }
  | drain :
      MainMove s .drain { s with
        freed := s.freed ++ (s.queue.contents MAX_TASKS).flatMap fun task =>
          task.data.toList.map (·.id)
        main := .destroyQueue }
  | destroyQueue :
      MainMove s .destroyQueue { s with queueMutex := s.queueMutex.destroy, main := .subLock }
  | subLock {m : Mutex (Thread κ)} (mutex : s.subMutex.lock .main = some m) :
      MainMove s .subLock { s with subMutex := m, main := .freeSubs }
  | freeSubs : MainMove s .freeSubs { s with subs := [], main := .subUnlock }
  | subUnlock : MainMove s .subUnlock { s with subMutex := s.subMutex.unlock, main := .destroySub }
  | destroySub : MainMove s .destroySub { s with subMutex := s.subMutex.destroy, main := .done }

/-- The steps of the bus. -/
inductive Move (s : State κ) : Label κ → State κ → Prop where
  | call {t : Caller κ} {c : BusCall} {s' : State κ} (outside : s.isOutside t = true)
      (up : s.main ≠ .done) (quiet : Quiet s s' t c.first) (mutex : s'.subMutex = s.subMutex)
      (buffers : s'.buffers = s.buffers) : Move s (.call t c) s'
  | go {t : Caller κ} {o : Outcome} {c : CallPc} {s' : State κ} (at_ : s.call t = some c)
      (move : CallMove s t o c s') : Move s (.go t o) s'
  | work {i : Worker} {o : Outcome} {s' : State κ} (move : WorkMove s i o (s.worker i) s') :
      Move s (.work i o) s'
  | ret {i : Worker} {task : Task} (running : s.worker i = .running task)
      (outside : s.call (.worker i) = none) : Move s (.ret i) (s.gotoWorker i (.freeing task))
  | crashIn {t : Caller κ} {c : CallPc} (at_ : s.call t = some c) (fault : faults s c = true) :
      Move s (.crash t) (s.recover t)
  | crashOut {t : Caller κ} (outside : s.isOutside t = true) : Move s (.crash t) (s.recover t)
  | wakeCaller {t : Caller κ} (asleep : t ∈ s.notFull) :
      Move s (.wakeCaller t) ({ s with notFull := s.notFull.erase t }.wakeCaller (some t))
  | wakeWorker {i : Worker} (asleep : i ∈ s.notEmpty) :
      Move s (.wakeWorker i) ({ s with notEmpty := s.notEmpty.erase i }.wakeWorker (some i))
  | shutdown (idle : s.main = .idle) : Move s .shutdown { s with main := .lock }
  | main {s' : State κ} (step : mainStep s = some s') : Move s .main s'

theorem quiet_goto {s : State κ} {t : Caller κ} {n : CallPc} (h : n.enqueues = false) :
    Quiet s (s.goto t n) t (some n) := by
  refine ⟨rfl, rfl, fun m hm => ?_⟩
  cases Option.mem_some_iff.mp hm
  exact h

theorem quiet_ret {s : State κ} {t : Caller κ} {r : Int} : Quiet s (s.ret t r) t none :=
  ⟨rfl, rfl, fun _ hm => nomatch hm⟩

/-- A position that is not at the lock of `sub_mutex`, for the moves outside of it. -/
theorem not_arrives {next : Option CallPc} {P : Prop} (h : ∀ n ∈ next, n.atSub = false) :
    (∃ n ∈ next, n.atSub = true) → P := by
  rintro ⟨n, hn, h'⟩
  rw [h n hn] at h'
  cases h'

theorem beginCall_quiet (t : Caller κ) (c : BusCall) (s : State κ) :
    Quiet s (beginCall t c s) t c.first ∧ (beginCall t c s).subMutex = s.subMutex ∧
      (beginCall t c s).buffers = s.buffers := by
  cases c with
  | publish a =>
    unfold beginCall BusCall.first
    by_cases h₁ : a.pluginId = 0
    · simp only [h₁, true_or, ↓reduceIte]
      exact ⟨quiet_ret, rfl, rfl⟩
    by_cases h₂ : a.data = .null
    · simp only [h₁, h₂, true_or, or_true, ↓reduceIte]
      exact ⟨quiet_ret, rfl, rfl⟩
    by_cases h₃ : a.len = 0
    · simp only [h₁, h₂, h₃, or_true, ↓reduceIte]
      exact ⟨quiet_ret, rfl, rfl⟩
    · simp only [h₁, h₂, h₃, or_self, ↓reduceIte]
      exact ⟨quiet_goto rfl, rfl, rfl⟩
  | subscribe a =>
    unfold beginCall BusCall.first
    by_cases h₁ : a.event = .null
    · simp only [h₁, ↓reduceIte]
      exact ⟨quiet_ret, rfl, rfl⟩
    · simp only [h₁, ↓reduceIte]
      cases a.cb with
      | none => exact ⟨quiet_ret, rfl, rfl⟩
      | some cb => exact ⟨quiet_goto rfl, rfl, rfl⟩

theorem callStep_moves {t : Caller κ} {o : Outcome} {c : CallPc} {s s' : State κ}
    (h : callStep t o c s = some s') : CallMove s t o c s' := by
  have one : ∀ {n m : CallPc}, m ∈ some n → m = n := fun h => (Option.mem_some_iff.mp h).symm
  have goes : ∀ {s₁ : State κ} (n : CallPc), s₁.core = s.core →
      s₁.call = Function.update s.call t (some n) → n.enqueues = false → Quiet s s₁ t (some n) :=
    fun n h₁ h₂ h₃ => ⟨h₁, h₂, fun m hm => one hm ▸ h₃⟩
  cases c with
  | publishLock a =>
    obtain ⟨m, hm, rfl⟩ := Option.map_eq_some_iff.mp h
    exact .lockSub (goes (.publishSearch a) rfl rfl rfl) rfl rfl rfl (fun _ _ h => by cases h) hm rfl
  | publishSearch a =>
    simp only [callStep] at h
    cases hs : search a.pluginId a.event s.subs with
    | notFound =>
      rw [hs] at h; cases h
      exact .inside (quiet_goto rfl) rfl rfl rfl (fun _ _ h => by cases h) rfl rfl
    | fault => rw [hs] at h; cases h
    | found it =>
      rw [hs] at h; cases h
      refine .inside (quiet_goto rfl) rfl rfl rfl (fun a' it' h => ?_) rfl rfl
      cases h
      exact (search_found hs).2
  | publishCopy a it =>
    simp only [callStep] at h
    split at h
    · cases h
      exact .inside (quiet_goto rfl) rfl rfl rfl (fun _ _ h => by cases h) rfl rfl
    · obtain ⟨bytes, hb, rfl⟩ := Option.map_eq_some_iff.mp h
      exact .copies hb
  | publishMiss a =>
    cases h
    refine .unlockSub (goes (.publishMsg a) rfl rfl rfl) rfl rfl (fun n hn => ?_) rfl rfl
    cases one hn
    exact ⟨rfl, rfl⟩
  | publishMsg a =>
    have out : ∀ s₁ : State κ, Quiet s s₁ t none → s₁.subMutex = s.subMutex →
        s₁.buffers = s.buffers → CallMove s t o (.publishMsg a) s₁ := fun s₁ hq hm hb =>
      .outside hq rfl rfl (fun _ h => nomatch h) (not_arrives fun _ h => nomatch h)
        (fun _ _ _ h => by cases h) hm hb
    simp only [callStep] at h
    split at h
    · obtain ⟨e, -, rfl⟩ := Option.map_eq_some_iff.mp h
      exact out _ ⟨rfl, rfl, fun _ h => nomatch h⟩ rfl rfl
    · cases h
      exact out _ quiet_ret rfl rfl
  | publishUnlock r =>
    cases h
    exact .unlockSub ⟨rfl, rfl, fun _ h => nomatch h⟩ rfl rfl (fun _ h => nomatch h) rfl rfl
  | enqueueLock a task =>
    obtain ⟨m, hm, rfl⟩ := Option.map_eq_some_iff.mp h
    exact .enqueueLock hm
  | enqueueTest a task =>
    simp only [callStep] at h
    split at h
    · rename_i hf
      cases h
      exact .sleep hf.1 hf.2
    · rename_i hf
      by_cases hd : s.shutDown = true
      · rw [if_pos hd] at h
        cases h
        exact .refuse hd
      · rw [if_neg hd] at h
        obtain ⟨⟨i, rest⟩, hw, rfl⟩ := Option.map_eq_some_iff.mp h
        have hd' : s.shutDown = false := by simpa using hd
        exact .push (fun hc => hf ⟨hc, hd'⟩) hd' hw
  | enqueueWait a task => cases h
  | enqueueUnlock => cases h; exact .enqueueUnlock
  | subscribeAlloc a cb =>
    simp only [callStep] at h
    have fails : ∀ s₁ : State κ, Quiet s s₁ t none → s₁.subMutex = s.subMutex →
        s₁.buffers = s.buffers → (o.malloc = true → o.strdup = true → False) →
        CallMove s t o (.subscribeAlloc a cb) s₁ := fun s₁ hq hm hb ho =>
      .outside hq rfl rfl (fun _ h => nomatch h) (not_arrives fun _ h => nomatch h)
        (fun _ _ _ _ _ h₁ h₂ => (ho h₁ h₂).elim) hm hb
    split at h
    · rename_i hm
      cases h
      exact fails _ quiet_ret rfl rfl fun h _ => by rw [hm] at h; cases h
    · rename_i hm
      cases he : a.event with
      | null => rw [he] at h; cases h
      | bad => rw [he] at h; cases h
      | obj e =>
        simp only [he] at h
        split at h
        · rename_i hd
          cases h
          exact fails _ quiet_ret rfl rfl fun _ h => by rw [hd] at h; cases h
        · rename_i hd
          cases h
          have hm' : o.malloc = true := by simpa using hm
          have hd' : o.strdup = true := by simpa using hd
          refine .outside (quiet_goto rfl) rfl rfl (fun n hn => by cases one hn; rfl)
            (fun _ => ⟨a, cb, e, rfl, he, hm', hd'⟩) (fun _ _ _ _ _ _ _ => ⟨_, rfl, rfl⟩) rfl rfl
  | subscribeLock n =>
    obtain ⟨m, hm, rfl⟩ := Option.map_eq_some_iff.mp h
    exact .lockSub (goes (.subscribeInsert n) rfl rfl rfl) rfl rfl rfl (fun _ _ h => by cases h) hm
      rfl
  | subscribeInsert n =>
    cases h
    exact .inside (goes (.subscribeUnlock n) rfl rfl rfl) rfl rfl rfl (fun _ _ h => by cases h) rfl
      rfl
  | subscribeUnlock n =>
    cases h
    refine .unlockSub (goes (.subscribeMsg n) rfl rfl rfl) rfl rfl (fun m hm => ?_) rfl rfl
    cases one hm
    exact ⟨rfl, rfl⟩
  | subscribeMsg n =>
    cases h
    exact .outside ⟨rfl, rfl, fun _ h => nomatch h⟩ rfl rfl (fun _ h => nomatch h)
      (not_arrives fun _ h => nomatch h) (fun _ _ _ h => by cases h) rfl rfl

omit [DecidableEq κ] in
theorem mainStep_moves {s s' : State κ} (h : mainStep s = some s') : MainMove s s.main s' := by
  unfold mainStep at h
  cases hm : s.main with
  | idle | done => rw [hm] at h; cases h
  | lock =>
    rw [hm] at h
    obtain ⟨m, mutex, rfl⟩ := Option.map_eq_some_iff.mp h
    exact .lock mutex
  | broadcast => rw [hm] at h; cases h; exact .broadcast
  | unlock => rw [hm] at h; cases h; exact .unlock
  | join n =>
    simp only [hm] at h
    split at h
    · rename_i hn
      split at h
      · rename_i exited
        cases h
        exact @MainMove.join κ s ⟨n, hn⟩ exited
      · cases h
    · rename_i hn
      cases h
      exact .joined (Nat.le_of_not_lt hn)
  | drain => rw [hm] at h; cases h; exact .drain
  | destroyQueue => rw [hm] at h; cases h; exact .destroyQueue
  | subLock =>
    rw [hm] at h
    obtain ⟨m, mutex, rfl⟩ := Option.map_eq_some_iff.mp h
    exact .subLock mutex
  | freeSubs => rw [hm] at h; cases h; exact .freeSubs
  | subUnlock => rw [hm] at h; cases h; exact .subUnlock
  | destroySub => rw [hm] at h; cases h; exact .destroySub

theorem workerStep_moves {i : Worker} {o : Outcome} {s s' : State κ}
    (h : workerStep i o s = some s') : WorkMove s i o (s.worker i) s' := by
  unfold workerStep at h
  cases hw : s.worker i with
  | lock =>
    rw [hw] at h
    obtain ⟨m, hm, rfl⟩ := Option.map_eq_some_iff.mp h
    exact .lock hm
  | test =>
    simp only [hw] at h
    by_cases h₁ : s.queue.count = 0 ∧ s.shutDown = false
    · rw [if_pos h₁] at h
      cases h
      exact .sleep h₁.1 h₁.2
    rw [if_neg h₁] at h
    by_cases h₂ : s.shutDown = true ∧ s.queue.count = 0
    · rw [if_pos h₂] at h
      cases h
      exact .drained h₂.2 h₂.1
    rw [if_neg h₂] at h
    obtain ⟨⟨t, rest⟩, hs, rfl⟩ := Option.map_eq_some_iff.mp h
    refine .pop (fun hc => ?_) hs
    cases hd : s.shutDown with
    | true => exact h₂ ⟨hd, hc⟩
    | false => exact h₁ ⟨hc, hd⟩
  | wait => rw [hw] at h; cases h
  | unlock task => rw [hw] at h; cases h; exact .unlock
  | dispatch task =>
    simp only [hw] at h
    cases hs : task.subPtr with
    | some it => rw [hs] at h; cases h; exact .dispatch hs
    | none => rw [hs] at h; cases h; exact .skip hs
  | running task => rw [hw] at h; cases h
  | recover task =>
    rw [hw] at h
    obtain ⟨it, hs, rfl⟩ := Option.map_eq_some_iff.mp h
    exact .recover hs
  | freeing task => rw [hw] at h; cases h; exact .free
  | leave => rw [hw] at h; cases h; exact .exit
  | exited => rw [hw] at h; cases h

/-- **Inversion.** Every step is one of the moves. -/
theorem step_moves {l : Label κ} {s s' : State κ} (h : (bus κ).step l s = some s') :
    Move s l s' := by
  cases l with
  | call t c =>
    simp only [bus, step] at h
    split at h
    · rename_i hc
      cases h
      obtain ⟨h₁, h₂, h₃⟩ := beginCall_quiet t c s
      exact .call hc.1 hc.2 h₁ h₂ h₃
    · cases h
  | go t o =>
    obtain ⟨c, hc, hs⟩ := Option.bind_eq_some_iff.mp h
    exact .go hc (callStep_moves hs)
  | work i o => exact .work (workerStep_moves h)
  | ret i =>
    simp only [bus, step] at h
    cases hw : s.worker i with
    | running task =>
      simp only [hw] at h
      split at h
      · rename_i hc
        cases h
        exact .ret hw hc
      · cases h
    | _ => simp only [hw, reduceCtorEq] at h
  | crash t =>
    simp only [bus, step] at h
    cases hc : s.call t with
    | some c =>
      simp only [hc] at h
      split at h
      · rename_i hf
        cases h
        exact .crashIn hc hf
      · cases h
    | none =>
      simp only [hc] at h
      split at h
      · rename_i ho
        cases h
        exact .crashOut ho
      · cases h
  | wakeCaller t =>
    simp only [bus, step] at h
    split at h
    · rename_i hm
      cases h
      exact .wakeCaller hm
    · cases h
  | wakeWorker i =>
    simp only [bus, step] at h
    split at h
    · rename_i hm
      cases h
      exact .wakeWorker hm
    · cases h
  | shutdown =>
    simp only [bus, step] at h
    split at h
    · rename_i hm
      cases h
      exact .shutdown hm
    · cases h
  | main => exact .main h

end EventBus
end CoreCDTL
