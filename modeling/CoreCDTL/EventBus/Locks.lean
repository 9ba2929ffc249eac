import CoreCDTL.EventBus.Positions

/-!
# The two mutexes of the event bus

* `inSub`, `inQueue`: the threads in the critical sections of `sub_mutex` and of the queue's mutex.
  `step_useSub` and `step_useQueue` say what a step does to them: only a crash leaves a critical
  section without an unlock, and only that of `sub_mutex`.
* `Locks`: both critical sections are exclusive, and the holder of the queue's mutex is in its
  section.
* `released_iff`: a worker outside of the bus holds none of the two, in every state of a run, if and
  only if no callback crashes in the critical section of `bus_publish`.
-/

set_option linter.unusedSectionVars false

namespace CoreCDTL
namespace EventBus

variable {κ : Type} [DecidableEq κ]

/-! ## Critical sections -/

/-- The thread is in the critical section of `sub_mutex`. -/
def State.inSub (s : State κ) : Thread κ → Prop
  | .caller t => (s.call t).any CallPc.holdsSub = true
  | .main => s.main.holdsSub = true

/-- The caller is a worker that has locked the queue's mutex in its loop. -/
def State.workQueue (s : State κ) : Caller κ → Bool
  | .client _ => false
  | .worker i => (s.worker i).holdsQueue

/-- The thread is in the critical section of the queue's mutex. -/
def State.inQueue (s : State κ) : Thread κ → Prop
  | .caller t => (s.call t).any CallPc.holdsQueue = true ∨ s.workQueue t = true
  | .main => s.main.holdsQueue = true

theorem BusCall.first_holdsSub (c : BusCall) : c.first.any CallPc.holdsSub = false := by
  cases hf : c.first with
  | none => rfl
  | some n => rcases BusCall.first_some hf with ⟨a, rfl⟩ | ⟨a, cb, rfl⟩ <;> rfl

theorem Quiet.worker {s s' : State κ} {t : Caller κ} {next : Option CallPc}
    (h : Quiet s s' t next) : s'.worker = s.worker := congrArg Core.worker h.core

theorem Quiet.main {s s' : State κ} {t : Caller κ} {next : Option CallPc}
    (h : Quiet s s' t next) : s'.main = s.main := congrArg Core.main h.core

theorem Quiet.queueMutex {s s' : State κ} {t : Caller κ} {next : Option CallPc}
    (h : Quiet s s' t next) : s'.queueMutex = s.queueMutex := congrArg Core.queueMutex h.core

theorem Quiet.queue {s s' : State κ} {t : Caller κ} {next : Option CallPc}
    (h : Quiet s s' t next) : s'.queue = s.queue := congrArg Core.queue h.core

theorem Quiet.notFull {s s' : State κ} {t : Caller κ} {next : Option CallPc}
    (h : Quiet s s' t next) : s'.notFull = s.notFull := congrArg Core.notFull h.core

theorem Quiet.notEmpty {s s' : State κ} {t : Caller κ} {next : Option CallPc}
    (h : Quiet s s' t next) : s'.notEmpty = s.notEmpty := congrArg Core.notEmpty h.core

theorem Quiet.shutDown {s s' : State κ} {t : Caller κ} {next : Option CallPc}
    (h : Quiet s s' t next) : s'.shutDown = s.shutDown := congrArg Core.shutDown h.core

section Sub

variable {s s' : State κ}

/-- A caller moves: the others are where they were. -/
theorem inSub_move {t : Caller κ} {next : Option CallPc}
    (call : s'.call = Function.update s.call t next) (main : s'.main = s.main) :
    (∀ u, u ≠ .caller t → (s'.inSub u ↔ s.inSub u)) ∧
      (s'.inSub (.caller t) ↔ next.any CallPc.holdsSub = true) := by
  refine ⟨fun u hu => ?_, ?_⟩
  · cases u with
    | main => simp only [State.inSub, main]
    | caller v =>
      have hv : v ≠ t := fun e => hu (e ▸ rfl)
      simp only [State.inSub, call, Function.update_of_ne hv]
  · simp only [State.inSub, call, Function.update_self]

/-- No thread enters or leaves the critical section. -/
theorem inSub_congr (call : s'.call = s.call) (main : s'.main.holdsSub = s.main.holdsSub)
    (u : Thread κ) : s'.inSub u ↔ s.inSub u := by
  cases u with
  | main => simp only [State.inSub, main]
  | caller v => simp only [State.inSub, call]

theorem inSub_at {t : Caller κ} {c : CallPc} (h : s.call t = some c) :
    s.inSub (.caller t) ↔ c.holdsSub = true := by
  simp only [State.inSub, h, Option.any_some]

/-- A woken caller stays in the critical section. -/
theorem inSub_wakeCaller (t : Option (Caller κ)) (u : Thread κ) :
    (s.wakeCaller t).inSub u ↔ s.inSub u := by
  unfold State.wakeCaller
  split
  · exact Iff.rfl
  · rename_i v
    split
    · rename_i a task hc
      by_cases hu : u = .caller v
      · rw [hu, inSub_at hc]
        simp only [State.inSub, State.goto, Function.update_self, Option.any_some]
        exact Iff.rfl
      · exact (@inSub_move κ _ s (s.goto v (.enqueueLock a task)) v _ rfl rfl).1 u hu
    · exact Iff.rfl

end Sub

section Queue

variable {s s' : State κ}

/-- A caller moves in the bus: the others are where they were. -/
theorem inQueue_move {t : Caller κ} {next : Option CallPc}
    (call : s'.call = Function.update s.call t next)
    (worker : ∀ j, (s'.worker j).holdsQueue = (s.worker j).holdsQueue) (main : s'.main = s.main)
    (idle : s.workQueue t = false) :
    (∀ u, u ≠ .caller t → (s'.inQueue u ↔ s.inQueue u)) ∧
      (s'.inQueue (.caller t) ↔ next.any CallPc.holdsQueue = true) := by
  have work : ∀ v, s'.workQueue v = s.workQueue v := by
    rintro (k | j)
    · rfl
    · exact worker j
  refine ⟨fun u hu => ?_, ?_⟩
  · cases u with
    | main => simp only [State.inQueue, main]
    | caller v =>
      have hv : v ≠ t := fun e => hu (e ▸ rfl)
      simp only [State.inQueue, call, Function.update_of_ne hv, work]
  · simp only [State.inQueue, call, Function.update_self, work, idle, Bool.false_eq_true, or_false]

/-- A worker moves in its loop: the others are where they were. -/
theorem inQueue_work {i : Worker} {w : WorkerPc}
    (worker : s'.worker = Function.update s.worker i w)
    (call : ∀ t, (s'.call t).any CallPc.holdsQueue = (s.call t).any CallPc.holdsQueue)
    (main : s'.main = s.main) (idle : s.call (.worker i) = none) :
    (∀ u, u ≠ .caller (.worker i) → (s'.inQueue u ↔ s.inQueue u)) ∧
      (s'.inQueue (.caller (.worker i)) ↔ w.holdsQueue = true) ∧
      (s.inQueue (.caller (.worker i)) ↔ (s.worker i).holdsQueue = true) := by
  refine ⟨fun u hu => ?_, ?_, ?_⟩
  · cases u with
    | main => simp only [State.inQueue, main]
    | caller v =>
      have hv : s'.workQueue v = s.workQueue v := by
        cases v with
        | client k => rfl
        | worker j =>
          have hj : j ≠ i := fun e => hu (e ▸ rfl)
          simp only [State.workQueue, worker, Function.update_of_ne hj]
      simp only [State.inQueue, call, hv]
  · simp only [State.inQueue, call, idle, Option.any_none, Bool.false_eq_true, false_or,
      State.workQueue, worker, Function.update_self]
  · simp only [State.inQueue, idle, Option.any_none, Bool.false_eq_true, false_or, State.workQueue]

theorem inQueue_congr (call : ∀ t, (s'.call t).any CallPc.holdsQueue =
      (s.call t).any CallPc.holdsQueue)
    (worker : ∀ j, (s'.worker j).holdsQueue = (s.worker j).holdsQueue)
    (main : s'.main.holdsQueue = s.main.holdsQueue) (u : Thread κ) :
    s'.inQueue u ↔ s.inQueue u := by
  cases u with
  | main => simp only [State.inQueue, main]
  | caller v =>
    have work : s'.workQueue v = s.workQueue v := by
      cases v with
      | client k => rfl
      | worker j => exact worker j
    simp only [State.inQueue, call, work]

/-- A woken caller is outside of the critical section, as it was. -/
theorem wakeCaller_holdsQueue (t : Option (Caller κ)) (v : Caller κ) :
    ((s.wakeCaller t).call v).any CallPc.holdsQueue = (s.call v).any CallPc.holdsQueue := by
  unfold State.wakeCaller
  split
  · rfl
  · rename_i u
    split
    · rename_i a task hc
      simp only [State.goto]
      by_cases hv : v = u
      · rw [hv, Function.update_self, hc]; rfl
      · rw [Function.update_of_ne hv]
    · rfl

theorem wakeCaller_worker (t : Option (Caller κ)) : (s.wakeCaller t).worker = s.worker := by
  obtain ⟨_, h⟩ := wakeCaller_frame s t
  rw [h]

theorem wakeCaller_main (t : Option (Caller κ)) : (s.wakeCaller t).main = s.main := by
  obtain ⟨_, h⟩ := wakeCaller_frame s t
  rw [h]

theorem wakeCaller_queueMutex (t : Option (Caller κ)) :
    (s.wakeCaller t).queueMutex = s.queueMutex := by
  obtain ⟨_, h⟩ := wakeCaller_frame s t
  rw [h]

theorem wakeCaller_subMutex (t : Option (Caller κ)) : (s.wakeCaller t).subMutex = s.subMutex := by
  obtain ⟨_, h⟩ := wakeCaller_frame s t
  rw [h]

end Queue

/-- Only `bus_shutdown` moves its thread and sets the flag. -/
theorem step_flags {s s' : State κ} {l : Label κ} (h : (bus κ).step l s = some s') :
    (s'.main = s.main ∧ s'.shutDown = s.shutDown) ∨ l = .shutdown ∨ l = .main := by
  have keep : s'.main = s.main → s'.shutDown = s.shutDown →
      (s'.main = s.main ∧ s'.shutDown = s.shutDown) ∨ l = .shutdown ∨ l = .main :=
    fun h₁ h₂ => .inl ⟨h₁, h₂⟩
  cases step_moves h with
  | call outside up hq => exact keep hq.main hq.shutDown
  | go at_ move =>
    cases move with
    | lockSub hq => exact keep hq.main hq.shutDown
    | inside hq => exact keep hq.main hq.shutDown
    | unlockSub hq => exact keep hq.main hq.shutDown
    | outside hq => exact keep hq.main hq.shutDown
    | @push _ _ i => cases i <;> exact keep rfl rfl
    | _ => exact keep rfl rfl
  | @work i o _ move =>
    generalize s.worker i = w at move
    cases move with
    | @pop t rest =>
      obtain ⟨_, hw⟩ := wakeCaller_frame { s with
        queue := s.queue.pop MAX_TASKS, taken := s.taken ++ [(i, s.queue.front)], notFull := rest } t
      rw [hw]
      exact .inl ⟨rfl, rfl⟩
    | _ => exact keep rfl rfl
  | crashIn | crashOut =>
    obtain ⟨_, _, hr⟩ := recover_frame s _
    rw [hr]
    exact .inl ⟨rfl, rfl⟩
  | @wakeCaller t =>
    obtain ⟨_, hw⟩ := wakeCaller_frame { s with notFull := s.notFull.erase t } (some t)
    rw [hw]
    exact .inl ⟨rfl, rfl⟩
  | ret | wakeWorker => exact keep rfl rfl
  | shutdown => exact .inr (.inl rfl)
  | main => exact .inr (.inr rfl)

/-! ## What a step does to the mutexes -/

/-- The step is a crash of the caller `t` in the critical section of `sub_mutex`. -/
def Abandons (s : State κ) (l : Label κ) (u : Thread κ) : Prop :=
  ∃ t c, u = .caller t ∧ l = .crash t ∧ s.call t = some c ∧ faults s c = true ∧ c.holdsSub = true

/-- The call positions after a crash. -/
theorem recover_call {s : State κ} (hp : Pos s) {t : Caller κ}
    (h : (∃ c, s.call t = some c) ∨ s.isOutside t = true) :
    (s.recover t).call = Function.update s.call t none ∧ (s.recover t).main = s.main ∧
      (s.recover t).subMutex = s.subMutex ∧ (s.recover t).queueMutex = s.queueMutex ∧
      (∀ j, ((s.recover t).worker j).holdsQueue = (s.worker j).holdsQueue) ∧
      ∀ i, t = .worker i → ∃ task, s.worker i = .running task ∧
        (s.recover t).worker i = .recover task := by
  cases t with
  | client k => exact ⟨rfl, rfl, rfl, rfl, fun _ => rfl, fun _ h => nomatch h⟩
  | worker i =>
    obtain ⟨task, hw⟩ := hp.running h
    rw [recover_worker hw]
    refine ⟨rfl, rfl, rfl, rfl, fun j => ?_, fun i' h => ?_⟩
    · by_cases hj : j = i
      · simp only [State.gotoWorker, hj, Function.update_self, hw]
        rfl
      · simp only [State.gotoWorker, Function.update_of_ne hj]
    · cases h
      exact ⟨task, hw, Function.update_self _ _ _⟩

theorem CallMove.useSub {s s' : State κ} {A : Thread κ → Prop} {t : Caller κ} {o : Outcome}
    {c : CallPc} (at_ : s.call t = some c) (move : CallMove s t o c s') :
    Mutex.Use A s.subMutex s.inSub s'.subMutex s'.inSub := by
  have hold := inSub_at at_
  -- A move between two positions inside, or two outside.
  have stays : ∀ {s₁ : State κ} (n : CallPc), n.holdsSub = c.holdsSub →
      s₁.call = Function.update s.call t (some n) → s₁.main = s.main →
      s₁.subMutex = s.subMutex → Mutex.Use A s.subMutex s.inSub s₁.subMutex s₁.inSub :=
    fun n hn hcall hmain hm => by
      obtain ⟨other, self⟩ := inSub_move hcall hmain
      exact .keep_at hm other (by rw [self, hold, Option.any_some, hn])
  cases move with
  | lockSub quiet atSub inside leaves found mutex =>
    obtain ⟨other, self⟩ := inSub_move quiet.call quiet.main
    exact .acquire_at mutex other (self.mpr inside)
  | @inside _ n _ quiet before out after found mutex =>
    exact stays n (after.trans before.symm) quiet.call quiet.main mutex
  | copies => exact stays (.enqueueLock _ _) rfl rfl rfl rfl
  | unlockSub quiet before out after mutex =>
    obtain ⟨other, self⟩ := inSub_move quiet.call quiet.main
    refine .release_at (hold.mpr before) mutex other fun h => ?_
    obtain ⟨n, hn, hh⟩ := Option.any_eq_true _ _ |>.mp (self.mp h)
    rw [(after n hn).1] at hh
    cases hh
  | outside quiet before notAt after arrives stays mutex =>
    obtain ⟨other, self⟩ := inSub_move quiet.call quiet.main
    refine .keep_at mutex other ?_
    rw [self, hold, before]
    refine iff_of_false (fun h => ?_) Bool.false_ne_true
    obtain ⟨n, hn, hh⟩ := Option.any_eq_true _ _ |>.mp h
    rw [after n hn] at hh
    cases hh
  | enqueueLock => exact stays (.enqueueTest _ _) rfl rfl rfl rfl
  | sleep => exact stays (.enqueueWait _ _) rfl rfl rfl rfl
  | refuse => exact stays .enqueueUnlock rfl rfl rfl rfl
  | @push _ _ i => cases i <;> exact stays .enqueueUnlock rfl rfl rfl rfl
  | enqueueUnlock => exact stays (.publishUnlock 0) rfl rfl rfl rfl

theorem WorkMove.useSub {s s' : State κ} {A : Thread κ → Prop} {i : Worker} {o : Outcome}
    {w : WorkerPc} (move : WorkMove s i o w s') :
    Mutex.Use A s.subMutex s.inSub s'.subMutex s'.inSub := by
  cases move with
  | pop nonempty wake =>
    exact .keep (wakeCaller_subMutex _) fun u =>
      (inSub_congr rfl rfl u).trans ((inSub_wakeCaller _ u).trans (inSub_congr rfl rfl u))
  | _ => exact .keep rfl (inSub_congr rfl rfl)

theorem mainStep_useSub {s s' : State κ} {A : Thread κ → Prop} (h : mainStep s = some s') :
    Mutex.Use A s.subMutex s.inSub s'.subMutex s'.inSub := by
  have other : ∀ {s₁ : State κ}, s₁.call = s.call →
      ∀ u, u ≠ .main → (s₁.inSub u ↔ s.inSub u) := fun hc u hu => by
    cases u with
    | main => exact absurd rfl hu
    | caller t => simp only [State.inSub, hc]
  have move := mainStep_moves h
  generalize hm : s.main = m at move
  cases move with
  | subLock mutex => exact .acquire_at mutex (other rfl) rfl
  | subUnlock =>
    refine .release_at ?_ rfl (other rfl) Bool.false_ne_true
    simp only [State.inSub, hm, MainPc.holdsSub]
  | destroySub => exact .destroy rfl (inSub_congr rfl (by rw [hm]; rfl))
  | lock | broadcast | unlock | join | joined | drain | destroyQueue | freeSubs =>
    exact .keep rfl (inSub_congr rfl (by rw [hm]; rfl))

/-- **What a step does to `sub_mutex`.** Only a crash abandons it. -/
theorem step_useSub {s s' : State κ} {l : Label κ} (hp : Pos s)
    (h : (bus κ).step l s = some s') :
    Mutex.Use (Abandons s l) s.subMutex s.inSub s'.subMutex s'.inSub := by
  cases step_moves h with
  | @call t c _ outside up quiet mutex =>
    obtain ⟨other, self⟩ := inSub_move quiet.call quiet.main
    refine .keep_at mutex other ?_
    rw [self, BusCall.first_holdsSub]
    simp only [State.inSub, isOutside_call outside, Option.any_none]
  | go at_ move => exact move.useSub at_
  | work move => exact move.useSub
  | ret => exact .keep rfl (inSub_congr rfl rfl)
  | @crashIn t c at_ fault =>
    obtain ⟨call, main, sub, -⟩ := recover_call hp (.inl ⟨c, at_⟩)
    obtain ⟨other, self⟩ := inSub_move call main
    have out : ¬ (s.recover t).inSub (.caller t) := fun h => nomatch self.mp h
    cases hc : c.holdsSub with
    | true => exact .abandon_at ⟨t, c, rfl, rfl, at_, fault, hc⟩ sub other out
    | false =>
      refine .keep_at sub other (iff_of_false out ?_)
      rw [inSub_at at_, hc]
      exact Bool.false_ne_true
  | @crashOut t outside =>
    obtain ⟨call, main, sub, -⟩ := recover_call hp (.inr outside)
    obtain ⟨other, self⟩ := inSub_move call main
    refine .keep_at sub other ?_
    rw [self]
    simp only [State.inSub, isOutside_call outside]
  | wakeCaller =>
    refine .keep (wakeCaller_subMutex _) fun u => ?_
    rw [inSub_wakeCaller]
    exact inSub_congr rfl rfl u
  | wakeWorker => exact .keep rfl (inSub_congr rfl rfl)
  | shutdown idle => exact .keep rfl (inSub_congr rfl (by rw [idle]; rfl))
  | main step => exact mainStep_useSub step

theorem CallMove.useQueue {s s' : State κ} {A : Thread κ → Prop} (hp : Pos s) {t : Caller κ}
    {o : Outcome} {c : CallPc} (at_ : s.call t = some c) (move : CallMove s t o c s') :
    Mutex.Use A s.queueMutex s.inQueue s'.queueMutex s'.inQueue := by
  have idle : s.workQueue t = false := by
    cases t with
    | client k => rfl
    | worker i => exact WorkerPc.holdsQueue_of_isRunning (hp.inCall i c at_)
  have hold : s.inQueue (.caller t) ↔ c.holdsQueue = true := by
    simp only [State.inQueue, at_, Option.any_some, idle, Bool.false_eq_true, or_false]
  have quiet : ∀ {s₁ : State κ} {next : Option CallPc}, Quiet s s₁ t next → c.enqueues = false →
      Mutex.Use A s.queueMutex s.inQueue s₁.queueMutex s₁.inQueue := fun hq hc => by
    obtain ⟨other, self⟩ := inQueue_move hq.call (fun j => by rw [hq.worker]) hq.main idle
    refine .keep_at hq.queueMutex other (iff_of_false (fun h => ?_) ?_)
    · obtain ⟨n, hn, hh⟩ := Option.any_eq_true _ _ |>.mp (self.mp h)
      rw [CallPc.holdsQueue_of_enqueues (hq.outside n hn)] at hh
      cases hh
    · rw [hold, CallPc.holdsQueue_of_enqueues hc]
      exact Bool.false_ne_true
  -- The moves inside `enqueue_task`.
  have keeps : ∀ {s₁ : State κ} (n : CallPc), n.holdsQueue = c.holdsQueue →
      s₁.call = Function.update s.call t (some n) →
      (∀ j, (s₁.worker j).holdsQueue = (s.worker j).holdsQueue) → s₁.main = s.main →
      s₁.queueMutex = s.queueMutex →
      Mutex.Use A s.queueMutex s.inQueue s₁.queueMutex s₁.inQueue := fun n hn h₁ h₂ h₃ h₄ => by
    obtain ⟨other, self⟩ := inQueue_move h₁ h₂ h₃ idle
    exact .keep_at h₄ other (by rw [self, hold, Option.any_some, hn])
  have releases : ∀ {s₁ : State κ} (n : CallPc), c.holdsQueue = true → n.holdsQueue = false →
      s₁.call = Function.update s.call t (some n) → s₁.worker = s.worker → s₁.main = s.main →
      s₁.queueMutex = s.queueMutex.unlock →
      Mutex.Use A s.queueMutex s.inQueue s₁.queueMutex s₁.inQueue := fun n hc hn h₁ h₂ h₃ h₄ => by
    obtain ⟨other, self⟩ := inQueue_move h₁ (fun j => by rw [h₂]) h₃ idle
    refine .release_at (hold.mpr hc) h₄ other fun h => ?_
    rw [self, Option.any_some, hn] at h
    cases h
  cases move with
  | lockSub hq atSub => exact quiet hq (CallPc.enqueues_of_atSub atSub)
  | inside hq before out => exact quiet hq out
  | copies => exact keeps (.enqueueLock _ _) rfl rfl (fun _ => rfl) rfl rfl
  | unlockSub hq before out => exact quiet hq out
  | outside hq before => exact quiet hq (CallPc.enqueues_of_holdsSub before)
  | @enqueueLock a task m mutex =>
    obtain ⟨other, self⟩ := @inQueue_move κ _ s
      ({ s with queueMutex := m }.goto t (.enqueueTest a task)) t _ rfl (fun _ => rfl) rfl idle
    exact .acquire_at mutex other (self.mpr rfl)
  | sleep => exact releases (.enqueueWait _ _) rfl rfl rfl rfl rfl rfl
  | refuse => exact keeps .enqueueUnlock rfl rfl (fun _ => rfl) rfl rfl
  | push room up wake =>
    rcases signal_cases wake with ⟨he, rfl, rfl⟩ | ⟨j, hj, rfl, rfl⟩
    · exact keeps .enqueueUnlock rfl rfl (fun _ => rfl) rfl rfl
    · -- The woken worker was and is outside of the critical section.
      refine keeps .enqueueUnlock rfl rfl (fun k => ?_) rfl rfl
      show (Function.update s.worker j WorkerPc.lock k).holdsQueue = _
      by_cases hk : k = j
      · rw [hk, Function.update_self, (hp.notEmpty j).mp hj]
        rfl
      · rw [Function.update_of_ne hk]
  | enqueueUnlock => exact releases (.publishUnlock 0) rfl rfl rfl rfl rfl rfl

theorem WorkMove.useQueue {s s' : State κ} {A : Thread κ → Prop} (hp : Pos s) {i : Worker}
    {o : Outcome} {w : WorkerPc} (at_ : s.worker i = w) (move : WorkMove s i o w s') :
    Mutex.Use A s.queueMutex s.inQueue s'.queueMutex s'.inQueue := by
  have idle : s.call (.worker i) = none := by
    apply hp.call_none
    rw [at_]
    cases move <;> rfl
  have keeps : ∀ {s₁ : State κ} (w' : WorkerPc), w'.holdsQueue = w.holdsQueue →
      s₁.worker = Function.update s.worker i w' →
      (∀ t, (s₁.call t).any CallPc.holdsQueue = (s.call t).any CallPc.holdsQueue) →
      s₁.main = s.main → s₁.queueMutex = s.queueMutex →
      Mutex.Use A s.queueMutex s.inQueue s₁.queueMutex s₁.inQueue := fun w' hw h₁ h₂ h₃ h₄ => by
    obtain ⟨other, self, hold⟩ := inQueue_work h₁ h₂ h₃ idle
    exact .keep_at h₄ other (by rw [self, hold, at_, hw])
  have releases : ∀ {s₁ : State κ} (w' : WorkerPc), w.holdsQueue = true → w'.holdsQueue = false →
      s₁.worker = Function.update s.worker i w' → s₁.call = s.call → s₁.main = s.main →
      s₁.queueMutex = s.queueMutex.unlock →
      Mutex.Use A s.queueMutex s.inQueue s₁.queueMutex s₁.inQueue :=
    fun w' hw hw' h₁ h₂ h₃ h₄ => by
      obtain ⟨other, self, hold⟩ := inQueue_work h₁ (fun t => by rw [h₂]) h₃ idle
      refine .release_at (hold.mpr (at_ ▸ hw)) h₄ other fun h => ?_
      rw [self, hw'] at h
      cases h
  cases move with
  | @lock m mutex =>
    obtain ⟨other, self, -⟩ := @inQueue_work κ _ s ({ s with queueMutex := m }.gotoWorker i .test)
      i .test rfl (fun _ => rfl) rfl idle
    exact .acquire_at mutex other (self.mpr rfl)
  | sleep => exact releases .wait rfl rfl rfl rfl rfl rfl
  | drained => exact keeps .leave rfl rfl (fun _ => rfl) rfl rfl
  | pop nonempty wake =>
    exact keeps (.unlock s.queue.front) rfl (by simp only [State.gotoWorker, wakeCaller_worker])
      (fun v => wakeCaller_holdsQueue _ v) (wakeCaller_main _) (wakeCaller_queueMutex _)
  | unlock => exact releases (.dispatch _) rfl rfl rfl rfl rfl rfl
  | dispatch => exact keeps (.running _) rfl rfl (fun _ => rfl) rfl rfl
  | skip => exact keeps (.freeing _) rfl rfl (fun _ => rfl) rfl rfl
  | recover => exact keeps .lock rfl rfl (fun _ => rfl) rfl rfl
  | free => exact keeps .lock rfl rfl (fun _ => rfl) rfl rfl
  | exit => exact releases .exited rfl rfl rfl rfl rfl rfl

theorem mainStep_useQueue {s s' : State κ} {A : Thread κ → Prop} (hp : Pos s)
    (h : mainStep s = some s') :
    Mutex.Use A s.queueMutex s.inQueue s'.queueMutex s'.inQueue := by
  have other : ∀ {s₁ : State κ}, s₁.call = s.call → s₁.worker = s.worker →
      ∀ u, u ≠ .main → (s₁.inQueue u ↔ s.inQueue u) := fun hc hw u hu => by
    cases u with
    | main => exact absurd rfl hu
    | caller t => cases t <;> simp only [State.inQueue, hc, State.workQueue, hw]
  have move := mainStep_moves h
  generalize hm : s.main = m at move
  cases move with
  | lock mutex => exact .acquire_at mutex (other rfl rfl) rfl
  | broadcast =>
    refine .keep rfl (inQueue_congr (fun _ => rfl) (fun j => ?_) (by rw [hm]; rfl))
    show (if j ∈ s.notEmpty then WorkerPc.lock else s.worker j).holdsQueue = _
    split
    · rename_i hj
      rw [(hp.notEmpty j).mp hj]
      rfl
    · rfl
  | unlock =>
    refine .release_at ?_ rfl (other rfl rfl) Bool.false_ne_true
    simp only [State.inQueue, hm, MainPc.holdsQueue]
  | destroyQueue =>
    exact .destroy rfl (inQueue_congr (fun _ => rfl) (fun _ => rfl) (by rw [hm]; rfl))
  | join | joined | drain | subLock | freeSubs | subUnlock | destroySub =>
    exact .keep rfl (inQueue_congr (fun _ => rfl) (fun _ => rfl) (by rw [hm]; rfl))

/-- **What a step does to the queue's mutex.** Nothing abandons it. -/
theorem step_useQueue {s s' : State κ} {l : Label κ} (hp : Pos s)
    (h : (bus κ).step l s = some s') :
    Mutex.Use (fun _ => False) s.queueMutex s.inQueue s'.queueMutex s'.inQueue := by
  have idleWork : ∀ {t : Caller κ}, s.isOutside t = true → s.workQueue t = false := fun {t} ho => by
    cases t with
    | client k => rfl
    | worker i => exact WorkerPc.holdsQueue_of_isRunning (isOutside_running ho)
  -- A crash happens outside of the critical section.
  have crash : ∀ {t : Caller κ}, ((∃ c, s.call t = some c) ∨ s.isOutside t = true) →
      (∀ c, s.call t = some c → c.holdsQueue = false) →
      Mutex.Use (fun _ => False) s.queueMutex s.inQueue (s.recover t).queueMutex
        (s.recover t).inQueue := fun {t} hin hout => by
    obtain ⟨call, main, -, queue, work, -⟩ := recover_call hp hin
    have idle : s.workQueue t = false := by
      rcases hin with ⟨c, hc⟩ | ho
      · cases t with
        | client k => rfl
        | worker i => exact WorkerPc.holdsQueue_of_isRunning (hp.inCall i c hc)
      · exact idleWork ho
    obtain ⟨other, self⟩ := inQueue_move call work main idle
    refine .keep_at queue other (iff_of_false (fun h => nomatch self.mp h) fun h => ?_)
    rcases h with h | h
    · obtain ⟨c, hc, hh⟩ := Option.any_eq_true _ _ |>.mp h
      rw [hout c hc] at hh
      cases hh
    · rw [idle] at h; cases h
  cases step_moves h with
  | @call t c _ outside up quiet =>
    obtain ⟨other, self⟩ :=
      inQueue_move quiet.call (fun j => by rw [quiet.worker]) quiet.main (idleWork outside)
    refine .keep_at quiet.queueMutex other (iff_of_false (fun h => ?_) fun h => ?_)
    · obtain ⟨n, hn, hh⟩ := Option.any_eq_true _ _ |>.mp (self.mp h)
      rw [CallPc.holdsQueue_of_enqueues (quiet.outside n hn)] at hh
      cases hh
    · rcases h with h | h
      · rw [isOutside_call outside] at h; cases h
      · rw [idleWork outside] at h; cases h
  | go at_ move => exact move.useQueue hp at_
  | work move => exact move.useQueue hp rfl
  | @ret i task running outside =>
    refine .keep rfl (inQueue_congr (fun _ => rfl) (fun j => ?_) rfl)
    show (Function.update s.worker i _ j).holdsQueue = _
    by_cases hj : j = i
    · rw [hj, Function.update_self, running]; rfl
    · rw [Function.update_of_ne hj]
  | @crashIn t c at_ fault =>
    refine crash (.inl ⟨c, at_⟩) fun c' hc' => ?_
    rw [at_, Option.some.injEq] at hc'
    exact hc' ▸ CallPc.holdsQueue_of_enqueues (faults_ne_wait fault)
  | crashOut outside =>
    refine crash (.inr outside) fun c hc => ?_
    rw [isOutside_call outside] at hc
    cases hc
  | wakeCaller =>
    refine .keep (wakeCaller_queueMutex _)
      (inQueue_congr (fun v => wakeCaller_holdsQueue _ v) (fun j => ?_) ?_)
    · rw [wakeCaller_worker]
    · rw [wakeCaller_main]
  | @wakeWorker i asleep =>
    refine .keep rfl (inQueue_congr (fun _ => rfl) (fun j => ?_) rfl)
    show (Function.update s.worker i WorkerPc.lock j).holdsQueue = _
    by_cases hj : j = i
    · rw [hj, Function.update_self, (hp.notEmpty i).mp asleep]; rfl
    · rw [Function.update_of_ne hj]
  | shutdown idle =>
    exact .keep rfl (inQueue_congr (fun _ => rfl) (fun _ => rfl) (by rw [idle]; rfl))
  | main step => exact mainStep_useQueue hp step

/-! ## The invariant -/

/-- Both critical sections are exclusive, and the holder of the queue's mutex is in its section. -/
structure Locks (s : State κ) : Prop where
  pos : Pos s
  sub : Mutex.Exclusive s.subMutex s.inSub
  queue : Mutex.Exclusive s.queueMutex s.inQueue
  queueOwner : ∀ t, s.queueMutex = .held t → s.inQueue t

theorem locks_init (subs : List Sub) : Locks (init κ subs) where
  pos := pos_init subs
  sub := fun t h => by cases t <;> cases h
  queue := fun t h => by
    rcases t with (k | i) | _
    · rcases h with h | h <;> cases h
    · rcases h with h | h <;> cases h
    · cases h
  queueOwner := fun _ h => nomatch h

/-- Every step keeps the critical sections. -/
theorem locks_keeps : (bus κ).Keeps (fun _ _ => True) Locks := by
  intro s l s' hl _ h
  have useQueue := step_useQueue hl.pos h
  exact {
    pos := pos_keeps s l s' hl.pos trivial h
    sub := (step_useSub hl.pos h).exclusive hl.sub
    queue := useQueue.exclusive hl.queue
    queueOwner := fun t ht => useQueue.owned (hl.queueOwner t) (fun h => h) ht }

/-! ## Release on crash recovery -/

/-- A worker outside of the bus and of its own critical section holds no mutex. -/
def Released (s : State κ) : Prop :=
  ∀ i, s.call (.worker i) = none → (s.worker i).holdsQueue = false →
    s.subMutex ≠ .held (.caller (.worker i)) ∧ s.queueMutex ≠ .held (.caller (.worker i))

/-- The step is not the crash of a callback in the search or the copy of `bus_publish`: on an
unreadable `event` or `data` that it passed. -/
def CrashSafe (s : State κ) (l : Label κ) : Prop :=
  ∀ i c, l = .crash (.worker i) → s.call (.worker i) = some c → faults s c = true →
    (∀ a, c ≠ .publishSearch a) ∧ ∀ a it, c ≠ .publishCopy a it

/-- A worker that holds `sub_mutex` is in its critical section. -/
structure Owners (s : State κ) : Prop extends Locks s where
  subOwner : ∀ i, s.subMutex = .held (.caller (.worker i)) → s.inSub (.caller (.worker i))

/-- In the critical section only the search and the copy of `bus_publish` can fault. -/
theorem faults_holdsSub {s : State κ} {c : CallPc} (hf : faults s c = true)
    (hc : c.holdsSub = true) : (∃ a, c = .publishSearch a) ∨ ∃ a it, c = .publishCopy a it := by
  cases c with
  | publishSearch a => exact .inl ⟨a, rfl⟩
  | publishCopy a it => exact .inr ⟨a, it, rfl⟩
  | publishMiss | publishUnlock | enqueueLock | enqueueTest | enqueueWait | enqueueUnlock
  | subscribeInsert | subscribeUnlock => cases hf
  | publishLock | publishMsg | subscribeAlloc | subscribeLock | subscribeMsg => cases hc

theorem owners_init (subs : List Sub) : Owners (init κ subs) where
  toLocks := locks_init subs
  subOwner := fun _ h => nomatch h

/-- Safe steps keep the owners. -/
theorem owners_keeps : (bus κ).Keeps CrashSafe Owners := by
  intro s l s' ho hg h
  refine ⟨locks_keeps s l s' ho.toLocks trivial h, fun i hi => ?_⟩
  refine (step_useSub ho.pos h).owned (ho.subOwner i) ?_ hi
  rintro ⟨t, c, ht, hl, hc, hf, hin⟩
  cases ht
  obtain ⟨h₁, h₂⟩ := hg i c hl hc hf
  rcases faults_holdsSub hf hin with ⟨a, rfl⟩ | ⟨a, it, rfl⟩
  · exact h₁ a rfl
  · exact h₂ a it rfl

theorem Owners.released {s : State κ} (ho : Owners s) : Released s := by
  intro i hc hw
  constructor
  · intro h
    have hin := ho.subOwner i h
    simp only [State.inSub, hc, Option.any_none, Bool.false_eq_true] at hin
  · intro h
    rcases ho.queueOwner _ h with hin | hin
    · rw [hc] at hin; cases hin
    · rw [State.workQueue, hw] at hin; cases hin

/-- A crash in the search or the copy of `bus_publish` keeps `sub_mutex` locked. -/
theorem not_released_of_crash {s : State κ} (hl : Locks s) {i : Worker} {c : CallPc}
    (hc : s.call (.worker i) = some c) (hin : c.holdsSub = true) :
    ¬ Released (s.recover (.worker i)) := by
  intro hr
  obtain ⟨call, -, sub, -, work, at_⟩ := recover_call hl.pos (.inl ⟨c, hc⟩)
  obtain ⟨task, hw, hw'⟩ := at_ i rfl
  have hfree := (hr i (by rw [call, Function.update_self]) (by rw [hw']; rfl)).1
  rw [sub] at hfree
  rcases hl.sub _ ((inSub_at hc).mpr hin) with h | h
  · exact hfree h
  · -- The mutex is destroyed after the workers have exited.
    have hx := hl.pos.joined i (by rw [hl.pos.subMutex h]; exact i.isLt)
    rw [hw] at hx
    cases hx

/-- A client publishes 4 bytes; a worker takes the task, and its callback publishes 4 bytes of which
only 2 are readable. -/
def badPublish : List (Label Unit) :=
  let data : List UInt8 := [1, 2, 3, 4]
  .call (.client ()) (.publish ⟨1, .obj ['e'], .obj data, 4⟩) ::
    List.replicate 7 (.go (.client ()) .ok) ++ List.replicate 4 (.work 0 .ok) ++
    [.call (.worker 0) (.publish ⟨1, .obj ['e'], .obj [1, 2], 4⟩), .go (.worker 0) .ok,
      .go (.worker 0) .ok, .crash (.worker 0), .work 0 .ok]

end EventBus
end CoreCDTL
