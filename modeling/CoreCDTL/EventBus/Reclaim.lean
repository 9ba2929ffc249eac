import CoreCDTL.EventBus.Delivery
import CoreCDTL.EventBus.Locks

/-!
# Subscriptions and buffers that are in use

A task points to its subscription, which `bus_shutdown` frees with the rest of the list, and to its
data, which the worker frees behind the callback. Publishers, workers and `bus_shutdown` run at the
same time, and callbacks crash anywhere.

* `CallPc.sub`, `WorkerPc.task`: the pointers that a thread has, and will go through.
* `Held`: all of them, and those of the tasks in the ring, lead to subscriptions in the list. Since
  subscriptions leave it together, this is that none of these is freed.
* `no_dangling`: so it is after every run, and the data of the task of a worker is not freed either.
-/

set_option linter.unusedSectionVars false

namespace CoreCDTL
namespace EventBus

variable {κ : Type} [DecidableEq κ]

/-! ## Pointers -/

/-- The subscription that a bus call has found. -/
def CallPc.sub : CallPc → Option Sub
  | publishCopy _ it => some it
  | enqueueLock _ k | enqueueTest _ k | enqueueWait _ k => k.subPtr
  | _ => none

/-- The task that a worker has taken and not freed. -/
def WorkerPc.task : WorkerPc → Option Task
  | unlock k | dispatch k | running k | recover k | freeing k => some k
  | _ => none

/-- The subscriptions in use are in the list. -/
structure Held (s : State κ) : Prop where
  calls : ∀ t c it, s.call t = some c → c.sub = some it → it ∈ s.subs
  queue : ∀ k ∈ s.queue.contents MAX_TASKS, ∀ it, k.subPtr = some it → it ∈ s.subs
  workers : ∀ i k it, (s.worker i).task = some k → k.subPtr = some it → it ∈ s.subs

theorem held_init (subs : List Sub) : Held (init κ subs) where
  calls := fun _ _ _ h => nomatch h
  queue := fun k hk => by
    rw [show (init κ subs).queue.contents MAX_TASKS = [] from Ring.contents_nil rfl] at hk
    cases hk
  workers := fun _ _ _ h => nomatch h

theorem CallPc.holdsSub_of_sub {c : CallPc} {it : Sub} (h : c.sub = some it) :
    c.holdsSub = true := by
  cases c <;> first | rfl | cases h

/-! ## What a step does to them -/

/-- The list after a step: only `bus_subscribe` adds to it, and only `bus_shutdown` frees it. -/
inductive SubsMove (s : State κ) (l : Label κ) (s' : State κ) : Prop where
  | keep (subs : s'.subs = s.subs)
  | insert (n : Sub) (subs : s'.subs = n :: s.subs)
  | free (at_ : s.main = .freeSubs) (label : l = .main)

theorem wakeCaller_subs (s : State κ) (t : Option (Caller κ)) : (s.wakeCaller t).subs = s.subs := by
  obtain ⟨call, h⟩ := wakeCaller_frame s t
  rw [h]

theorem wakeWorker_subs (s : State κ) (i : Option Worker) : (s.wakeWorker i).subs = s.subs := by
  cases i <;> rfl

theorem wakeWorker_call (s : State κ) (i : Option Worker) : (s.wakeWorker i).call = s.call := by
  cases i <;> rfl

theorem recover_subs (s : State κ) (t : Caller κ) : (s.recover t).subs = s.subs := by
  obtain ⟨_, _, h⟩ := recover_frame s t
  rw [h]

theorem beginCall_subs_eq (t : Caller κ) (c : BusCall) (s : State κ) :
    (beginCall t c s).subs = s.subs := by
  cases c with
  | publish a =>
    simp only [beginCall]
    split
    · rfl
    split
    · rfl
    split <;> rfl
  | subscribe a =>
    simp only [beginCall]
    split
    · rfl
    · split <;> rfl

/-- Where a step of a bus call leads. -/
structure CallNext (s s' : State κ) (t : Caller κ) (c : CallPc) (next : Option CallPc) : Prop where
  call : s'.call = Function.update s.call t next
  /-- A pointer comes from the list or was there before. -/
  sub : ∀ n it, next = some n → n.sub = some it → c.sub = some it ∨ it ∈ s.subs
  subs : s'.subs = s.subs ∨ ∃ n, s'.subs = n :: s.subs

theorem callStep_next {t : Caller κ} {o : Outcome} {c : CallPc} {s s' : State κ}
    (h : callStep t o c s = some s') : ∃ next, CallNext s s' t c next := by
  have plain : ∀ {n : CallPc} {s₁ : State κ}, s₁.call = s.call → s₁.subs = s.subs →
      n.sub = none → CallNext s (s₁.goto t n) t c (some n) := fun {n s₁} hc hs hn =>
    ⟨by rw [← hc]; rfl, fun m it hm hit => (by cases hm; rw [hn] at hit; cases hit), .inl hs⟩
  have same : ∀ {n : CallPc} {s₁ : State κ}, s₁.call = s.call → s₁.subs = s.subs →
      n.sub = c.sub → CallNext s (s₁.goto t n) t c (some n) := fun {n s₁} hc hs hn =>
    ⟨by rw [← hc]; rfl, fun m it hm hit => (by cases hm; exact .inl (hn ▸ hit)), .inl hs⟩
  have returns : ∀ {s₁ : State κ} {r : Int}, s₁.call = s.call → s₁.subs = s.subs →
      CallNext s (s₁.ret t r) t c none := fun hc hs =>
    ⟨by rw [← hc]; rfl, nofun, .inl hs⟩
  cases c with
  | publishLock a =>
    obtain ⟨m, -, rfl⟩ := Option.map_eq_some_iff.mp h
    exact ⟨_, plain rfl rfl rfl⟩
  | publishSearch a =>
    simp only [callStep] at h
    cases hs : search a.pluginId a.event s.subs with
    | notFound =>
      rw [hs] at h
      cases h
      exact ⟨_, plain rfl rfl rfl⟩
    | fault =>
      rw [hs] at h
      cases h
    | found it =>
      rw [hs] at h
      cases h
      refine ⟨some (.publishCopy a it), rfl, fun n it' hn hit => .inr ?_, .inl rfl⟩
      cases hn
      cases hit
      exact (search_found hs).1
  | publishCopy a it =>
    simp only [callStep] at h
    split at h
    · cases h
      exact ⟨_, plain rfl rfl rfl⟩
    · obtain ⟨bytes, -, rfl⟩ := Option.map_eq_some_iff.mp h
      exact ⟨_, same rfl rfl rfl⟩
  | publishMiss a =>
    cases h
    exact ⟨_, plain rfl rfl rfl⟩
  | publishMsg a =>
    simp only [callStep] at h
    split at h
    · obtain ⟨e, -, rfl⟩ := Option.map_eq_some_iff.mp h
      exact ⟨_, returns rfl rfl⟩
    · cases h
      exact ⟨_, returns rfl rfl⟩
  | publishUnlock r =>
    cases h
    exact ⟨_, returns rfl rfl⟩
  | enqueueLock a task =>
    obtain ⟨m, -, rfl⟩ := Option.map_eq_some_iff.mp h
    exact ⟨_, same rfl rfl rfl⟩
  | enqueueTest a task =>
    simp only [callStep] at h
    split at h
    · cases h
      exact ⟨_, same rfl rfl rfl⟩
    · split at h
      · cases h
        exact ⟨_, plain rfl rfl rfl⟩
      · obtain ⟨⟨i, rest⟩, -, rfl⟩ := Option.map_eq_some_iff.mp h
        exact ⟨_, plain (wakeWorker_call _ i) (wakeWorker_subs _ i) rfl⟩
  | enqueueWait a task => cases h
  | enqueueUnlock =>
    cases h
    exact ⟨_, plain rfl rfl rfl⟩
  | subscribeAlloc a cb =>
    simp only [callStep] at h
    split at h
    · cases h
      exact ⟨_, returns rfl rfl⟩
    · split at h
      · split at h
        · cases h
          exact ⟨_, returns rfl rfl⟩
        · cases h
          exact ⟨_, plain rfl rfl rfl⟩
      · cases h
  | subscribeLock n =>
    obtain ⟨m, -, rfl⟩ := Option.map_eq_some_iff.mp h
    exact ⟨_, plain rfl rfl rfl⟩
  | subscribeInsert n =>
    cases h
    exact ⟨some (.subscribeUnlock n), rfl, fun m it hm hit => (by cases hm; cases hit), .inr ⟨n, rfl⟩⟩
  | subscribeUnlock n =>
    cases h
    exact ⟨_, plain rfl rfl rfl⟩
  | subscribeMsg n =>
    cases h
    exact ⟨_, returns rfl rfl⟩

theorem workerStep_subs {i : Worker} {o : Outcome} {s s' : State κ}
    (h : workerStep i o s = some s') : s'.subs = s.subs := by
  have move := workerStep_moves h
  generalize s.worker i = w at move
  cases move with
  | @pop t => exact wakeCaller_subs _ t
  | _ => rfl

theorem step_subs {l : Label κ} {s s' : State κ} (h : (bus κ).step l s = some s') :
    SubsMove s l s' := by
  cases l with
  | call t c =>
    simp only [bus, step] at h
    split at h
    · cases h
      exact .keep (beginCall_subs_eq t c s)
    · cases h
  | go t o =>
    obtain ⟨c, -, h⟩ := Option.bind_eq_some_iff.mp h
    obtain ⟨next, hn⟩ := callStep_next h
    rcases hn.subs with hs | ⟨n, hs⟩
    · exact .keep hs
    · exact .insert n hs
  | work i o => exact .keep (workerStep_subs h)
  | ret i =>
    cases step_moves h
    exact .keep rfl
  | crash t => cases step_moves h <;> exact .keep (recover_subs s t)
  | wakeCaller t =>
    cases step_moves h
    exact .keep (wakeCaller_subs _ _)
  | wakeWorker i =>
    cases step_moves h
    exact .keep rfl
  | shutdown =>
    cases step_moves h
    exact .keep rfl
  | main =>
    have move := mainStep_moves h
    generalize hm : s.main = m at move
    cases move with
    | freeSubs => exact .free hm rfl
    | _ => exact .keep rfl

/-- The pointers of the calls after a step. -/
theorem step_calls {l : Label κ} {s s' : State κ} (hp : Pos s) (h : (bus κ).step l s = some s')
    {t : Caller κ} {c : CallPc} {it : Sub} (hc : s'.call t = some c) (hit : c.sub = some it) :
    it ∈ s.subs ∨ ∃ c₀, s.call t = some c₀ ∧ c₀.sub = some it := by
  have stays : s'.call = s.call → it ∈ s.subs ∨ ∃ c₀, s.call t = some c₀ ∧ c₀.sub = some it :=
    fun he => .inr ⟨c, by rw [← he]; exact hc, hit⟩
  have moves : ∀ {u : Caller κ} {n : Option CallPc}, s'.call = Function.update s.call u n →
      (u = t → n = some c → it ∈ s.subs ∨ ∃ c₀, s.call t = some c₀ ∧ c₀.sub = some it) →
      it ∈ s.subs ∨ ∃ c₀, s.call t = some c₀ ∧ c₀.sub = some it := fun {u n} he hself => by
    by_cases hu : t = u
    · subst hu
      rw [he, Function.update_self] at hc
      exact hself rfl hc
    · rw [he, Function.update_of_ne hu] at hc
      exact .inr ⟨c, hc, hit⟩
  have crash : ∀ u, s' = s.recover u → (∃ c, s.call u = some c) ∨ s.isOutside u = true →
      it ∈ s.subs ∨ ∃ c₀, s.call t = some c₀ ∧ c₀.sub = some it := fun u he hin =>
    moves (n := none) (by rw [he]; exact (recover_call hp hin).1) fun _ h => nomatch h
  have woken : ∀ (s₁ : State κ) (u : Option (Caller κ)), s₁.call = s.call →
      s'.call = (s₁.wakeCaller u).call →
      it ∈ s.subs ∨ ∃ c₀, s.call t = some c₀ ∧ c₀.sub = some it := fun s₁ u h₁ he => by
    cases u with
    | none => exact stays (he.trans h₁)
    | some u =>
      simp only [State.wakeCaller] at he
      split at he
      · rename_i a task hu
        refine moves (u := u) (n := some (.enqueueLock a task)) (he.trans (by rw [← h₁]; rfl))
          fun hut hn => .inr ⟨.enqueueWait a task, by rw [← hut, ← h₁]; exact hu, ?_⟩
        cases hn
        exact hit
      · exact stays (he.trans h₁)
  cases l with
  | call u b =>
    cases step_moves h with
    | call outside up hq mutex =>
      refine moves hq.call fun _ hn => ?_
      rcases BusCall.first_some hn with ⟨a, rfl⟩ | ⟨a, cb, rfl⟩
      · cases hit
      · cases hit
  | go u o =>
    obtain ⟨c₁, hc₁, h⟩ := Option.bind_eq_some_iff.mp h
    obtain ⟨next, hn⟩ := callStep_next h
    refine moves hn.call fun hut hnext => ?_
    rcases hn.sub c it hnext hit with hs | hs
    · exact .inr ⟨c₁, hut ▸ hc₁, hs⟩
    · exact .inl hs
  | work i o =>
    have move := workerStep_moves h
    generalize s.worker i = w at move
    cases move with
    | @pop u rest nonempty wake =>
      exact woken ({ s with
        queue := s.queue.pop MAX_TASKS
        taken := s.taken ++ [(i, s.queue.front)]
        notFull := rest }) u rfl rfl
    | _ => exact stays rfl
  | ret i =>
    cases step_moves h
    exact stays rfl
  | crash u =>
    cases step_moves h with
    | crashIn at_ fault => exact crash u rfl (.inl ⟨_, at_⟩)
    | crashOut outside => exact crash u rfl (.inr outside)
  | wakeCaller u =>
    cases step_moves h
    exact woken ({ s with notFull := s.notFull.erase u }) (some u) rfl rfl
  | wakeWorker i =>
    cases step_moves h
    exact stays rfl
  | shutdown =>
    cases step_moves h
    exact stays rfl
  | main => exact stays (mainStep_frame h).call

/-- The task of a worker after a step. -/
theorem step_tasks {l : Label κ} {s s' : State κ} (h : (bus κ).step l s = some s') {j : Worker}
    {k : Task} (hk : (s'.worker j).task = some k) :
    (s.worker j).task = some k ∨ (s.queue.count ≠ 0 ∧ k = s.queue.front) := by
  have stays : s'.worker j = s.worker j → (s.worker j).task = some k ∨
      (s.queue.count ≠ 0 ∧ k = s.queue.front) := fun he => .inl (he ▸ hk)
  have moves : ∀ {i : Worker} {w : WorkerPc}, s'.worker = Function.update s.worker i w →
      (w.task = some k → (s.worker i).task = some k ∨ (s.queue.count ≠ 0 ∧ k = s.queue.front)) →
      (s.worker j).task = some k ∨ (s.queue.count ≠ 0 ∧ k = s.queue.front) := by
    intro i w he hself
    by_cases hj : j = i
    · subst hj
      rw [he, Function.update_self] at hk
      exact hself hk
    · exact stays (by rw [he, Function.update_of_ne hj])
  have crash : ∀ t, s' = s.recover t → (s.worker j).task = some k ∨
      (s.queue.count ≠ 0 ∧ k = s.queue.front) := by
    rintro t rfl
    cases t with
    | client k => exact stays rfl
    | worker i =>
      cases hw : s.worker i with
      | running task =>
        exact moves (congrArg State.worker (recover_worker hw)) fun h => .inl (by rw [hw]; exact h)
      | _ => exact stays (by simp only [State.recover, hw])
  cases step_moves h with
  | call outside up hq => exact stays (congrFun hq.worker j)
  | go at_ move =>
    cases move with
    | lockSub hq => exact stays (congrFun hq.worker j)
    | inside hq => exact stays (congrFun hq.worker j)
    | unlockSub hq => exact stays (congrFun hq.worker j)
    | outside hq => exact stays (congrFun hq.worker j)
    | @push _ _ i =>
      cases i with
      | none => exact stays rfl
      | some i => exact moves (i := i) (w := .lock) rfl fun h => by cases h
    | _ => exact stays rfl
  | @work i o _ move =>
    generalize hw : s.worker i = w at move
    cases move with
    | lock => exact moves (w := .test) rfl fun h => by cases h
    | sleep => exact moves (w := .wait) rfl fun h => by cases h
    | drained => exact moves (w := .leave) rfl fun h => by cases h
    | pop nonempty =>
      refine moves (i := i) (w := .unlock s.queue.front) ?_ fun h => .inr ⟨nonempty, ?_⟩
      · simp only [State.gotoWorker, wakeCaller_worker]
      · exact (Option.some.inj h).symm
    | unlock => exact moves (i := i) rfl fun h => .inl (by rw [hw]; exact h)
    | dispatch => exact moves (i := i) rfl fun h => .inl (by rw [hw]; exact h)
    | skip => exact moves (i := i) rfl fun h => .inl (by rw [hw]; exact h)
    | recover => exact moves (w := .lock) rfl fun h => by cases h
    | free => exact moves (w := .lock) rfl fun h => by cases h
    | exit => exact moves (w := .exited) rfl fun h => by cases h
  | @ret i task running =>
    exact moves (w := .freeing task) rfl fun h => .inl (by rw [running]; exact h)
  | @crashIn t => exact crash t rfl
  | @crashOut t => exact crash t rfl
  | @wakeCaller t => exact stays (by rw [wakeCaller_worker])
  | @wakeWorker i => exact moves (w := .lock) rfl fun h => by cases h
  | shutdown => exact stays rfl
  | main step =>
    rcases (mainStep_frame step).worker j with he | ⟨-, he⟩
    · exact stays he
    · rw [he] at hk
      cases hk

/-! ## The invariant -/

/-- A task in the ring after a step was there before, or was carried by a call. -/
theorem step_queue {l : Label κ} {s s' : State κ} (hf : Flow s) (h : (bus κ).step l s = some s')
    {k : Task} (hk : k ∈ s'.queue.contents MAX_TASKS) :
    k ∈ s.queue.contents MAX_TASKS ∨
      (s.shutDown = false ∧ ∃ t a, s.call t = some (.enqueueTest a k)) := by
  cases step_ring h with
  | keep queue => exact .inl (queue ▸ hk)
  | @push t o a k' label at_ room up queue =>
    rw [queue, Ring.contents_push hf.ring (Nat.lt_of_le_of_ne hf.ring.count room)] at hk
    rcases List.mem_append.mp hk with hk | hk
    · exact .inl hk
    · rw [List.mem_singleton.mp hk]
      exact .inr ⟨up, t, a, at_⟩
  | pop label nonempty queue =>
    rw [queue] at hk
    rw [Ring.contents_pop hf.ring.head (Nat.pos_of_ne_zero nonempty)]
    exact .inl (List.mem_cons_of_mem _ hk)

theorem front_mem {s : State κ} (hf : Flow s) (h : s.queue.count ≠ 0) :
    s.queue.front ∈ s.queue.contents MAX_TASKS := by
  rw [Ring.contents_pop hf.ring.head (Nat.pos_of_ne_zero h)]
  exact List.mem_cons_self

/-- When `bus_shutdown` frees the list, no thread has a pointer into it. -/
theorem Held.unused {s : State κ} (hd : Delivery s) (hl : Locks s) (hm : s.main = .freeSubs) :
    (∀ t c, s.call t = some c → c.sub = none) ∧ s.queue.count = 0 ∧
      ∀ i, s.worker i = .exited := by
  have hexit : ∀ i, s.worker i = .exited := fun i => hd.pos.joined i (by rw [hm]; exact i.isLt)
  have hmain : s.subMutex = .held .main := by
    rcases hl.sub .main (show s.main.holdsSub = true by rw [hm]; rfl) with h | h
    · exact h
    · rw [hl.pos.subMutex h] at hm
      cases hm
  refine ⟨fun t c hc => ?_, (hd.flow.closed 0 (by rw [hexit]; rfl)).2, hexit⟩
  cases hsub : c.sub with
  | none => rfl
  | some it =>
    rcases hl.sub _ ((inSub_at hc).mpr (CallPc.holdsSub_of_sub hsub)) with h | h
    · rw [hmain] at h
      cases h
    · rw [hmain] at h
      cases h

/-- Every step keeps the subscriptions in use. -/
theorem step_held {l : Label κ} {s s' : State κ} (hd : Delivery s) (hl : Locks s) (hh : Held s)
    (h : (bus κ).step l s = some s') : Held s' := by
  -- What was in use is in the list before the step.
  have calls : ∀ t c it, s'.call t = some c → c.sub = some it → it ∈ s.subs := by
    intro t c it hc hit
    rcases step_calls hd.pos h hc hit with hin | ⟨c₀, hc₀, hit₀⟩
    · exact hin
    · exact hh.calls t c₀ it hc₀ hit₀
  have queue : ∀ k ∈ s'.queue.contents MAX_TASKS, ∀ it, k.subPtr = some it → it ∈ s.subs :=
    fun k hk it hit => by
      rcases step_queue hd.flow h hk with hk | ⟨-, t, a, hc⟩
      · exact hh.queue k hk it hit
      · exact hh.calls t _ it hc hit
  have workers : ∀ i k it, (s'.worker i).task = some k → k.subPtr = some it → it ∈ s.subs :=
    fun i k it hk hit => by
      rcases step_tasks h hk with hk | ⟨hne, rfl⟩
      · exact hh.workers i k it hk hit
      · exact hh.queue _ (front_mem hd.flow hne) it hit
  cases step_subs h with
  | keep subs => exact ⟨by rwa [subs], by rwa [subs], by rwa [subs]⟩
  | insert n subs =>
    have grows : ∀ it, it ∈ s.subs → it ∈ s'.subs := fun it hit =>
      subs ▸ List.mem_cons_of_mem n hit
    exact ⟨fun t c it hc hit => grows it (calls t c it hc hit),
      fun k hk it hit => grows it (queue k hk it hit),
      fun i k it hk hit => grows it (workers i k it hk hit)⟩
  | free hm label =>
    subst label
    obtain ⟨hcalls, hempty, hexit⟩ := Held.unused hd hl hm
    have hs : s' = { s with subs := [], main := .subUnlock } := by
      have move := mainStep_moves h
      rw [hm] at move
      cases move
      rfl
    rw [hs]
    refine ⟨fun t c it hc hit => ?_, fun k hk => ?_, fun i k it hk => ?_⟩
    · rw [hcalls t c hc] at hit
      cases hit
    · have hnil : s.queue.contents MAX_TASKS = [] := Ring.contents_nil hempty
      rw [show ({ s with subs := [], main := .subUnlock } : State κ).queue.contents MAX_TASKS = []
        from hnil] at hk
      cases hk
    · rw [show ({ s with subs := [], main := .subUnlock } : State κ).worker i = .exited
        from hexit i] at hk
      cases hk

/-- The invariants of the bus with the subscriptions in use. -/
structure InUse (s : State κ) : Prop where
  delivery : Delivery s
  locks : Locks s
  held : Held s

theorem inUse_init (subs : List Sub) : InUse (init κ subs) :=
  ⟨delivery_init subs, locks_init subs, held_init subs⟩

theorem inUse_keeps : (bus κ).Keeps (fun _ _ => True) InUse := fun s l s' hk _ h =>
  ⟨delivery_keeps s l s' hk.delivery trivial h, locks_keeps s l s' hk.locks trivial h,
    step_held hk.delivery hk.locks hk.held h⟩

/-! ## Result -/

theorem WorkerPc.mem_hands {w : WorkerPc} {k : Task} (h : w.task = some k) :
    k ∈ w.toCall ∨ k ∈ w.toFree := by
  cases w with
  | unlock | dispatch => exact .inl (by cases h; exact List.mem_cons_self)
  | running | recover | freeing => exact .inr (by cases h; exact List.mem_cons_self)
  | lock | test | wait | leave | exited => cases h

/-- The data of the task in a worker's hand is not freed. -/
theorem data_held {s : State κ} (hd : Delivery s) {i : Worker} {k : Task}
    (h : (s.worker i).task = some k) : ∀ n ∈ k.ids, n ∉ s.freed := by
  have hhand := WorkerPc.mem_hands h
  have htaken : (i, k) ∈ s.taken := hd.custody.hand i k (List.mem_append.mpr hhand)
  have none_freed : (∀ n ∈ k.ids, s.freed.count n = 0) → ∀ n ∈ k.ids, n ∉ s.freed := fun hz n hn =>
    List.count_eq_zero.mp (hz n hn)
  rcases hd.fate htaken with ⟨-, -, hfreed⟩ | ⟨-, -, hfreed⟩ | ⟨hcalled, hfreed⟩
  · exact none_freed hfreed
  · exact none_freed hfreed
  · -- Called and freed, so in no hand: both sums of the custody are zero.
    exfalso
    have ht : k ∈ s.taken.map (·.2) := List.mem_map.mpr ⟨_, htaken, rfl⟩
    obtain ⟨n, hn⟩ := hd.ids (hd.entered_of_taken ht)
    have hcall := hd.custody.called k
    have hfree := hd.custody.freed n
    rw [hd.count_called (hd.entered_of_taken ht) hn, hcalled,
      hfreed n (hn ▸ List.mem_singleton_self n)] at hfree
    rw [List.count_eq_one_of_mem hd.taken_nodup ht, hcalled] at hcall
    have hcall₀ : (s.worker i).toCall.count k = 0 :=
      (Finset.sum_eq_zero_iff (f := fun i => (s.worker i).toCall.count k)
        (s := Finset.univ)).mp (by omega) i (Finset.mem_univ i)
    have hfree₀ : ((s.worker i).toFree.flatMap Task.ids).count n = 0 :=
      (Finset.sum_eq_zero_iff (f := fun i => ((s.worker i).toFree.flatMap Task.ids).count n)
        (s := Finset.univ)).mp (by omega) i (Finset.mem_univ i)
    rcases hhand with hk | hk
    · exact List.count_eq_zero.mp hcall₀ hk
    · exact List.count_eq_zero.mp hfree₀
        (List.mem_flatMap.mpr ⟨k, hk, hn ▸ List.mem_singleton_self n⟩)

/-- **Nothing that is in use is freed.** For every list of subscriptions and every run, with crashes
and `bus_shutdown` at any moment: the subscriptions to which the publishers, the tasks in the ring and
the tasks of the workers point are in the list, and the data of a worker's task is not freed. -/
theorem no_dangling (subs : List Sub) (ls : List (Label κ)) (s : State κ)
    (h : (bus κ).run ls (init κ subs) = some s) :
    Held s ∧ ∀ i k, (s.worker i).task = some k → ∀ n ∈ k.ids, n ∉ s.freed := by
  have hk := inUse_keeps.run_all (inUse_init subs) h
  exact ⟨hk.held, fun i k hik => data_held hk.delivery hik⟩

/-- A publisher enqueues a task and a worker takes it; then `bus_shutdown` is called. -/
def shutDownInCallback : List (Label Unit) :=
  .call (.client ()) (.publish ⟨1, .obj ['e'], .obj [7], 1⟩) ::
    List.replicate 7 (.go (.client ()) .ok) ++ List.replicate 4 (.work 0 .ok) ++
    [.shutdown, .main, .main, .main]

/-- The worker is in the callback when `bus_shutdown` waits for it: its subscription is there. -/
theorem no_dangling_shutDownInCallback :
    ∃ s, (bus Unit).run shutDownInCallback (init Unit [⟨['e'], 1, 1, 0⟩]) = some s ∧
      (s.worker 0).task = some ⟨some ⟨0, [7]⟩, 1, some ⟨['e'], 1, 1, 0⟩⟩ ∧
      ⟨['e'], 1, 1, 0⟩ ∈ s.subs ∧ 0 ∉ s.freed := by
  obtain ⟨s, hs⟩ : ∃ s, (bus Unit).run shutDownInCallback (init Unit [⟨['e'], 1, 1, 0⟩]) = some s :=
    ⟨_, rfl⟩
  have hw : (s.worker 0).task = some ⟨some ⟨0, [7]⟩, 1, some ⟨['e'], 1, 1, 0⟩⟩ := by
    cases hs
    rfl
  have h := no_dangling _ _ s hs
  exact ⟨s, hs, hw, h.1.workers 0 _ _ hw rfl, h.2 0 _ hw 0 (List.mem_singleton_self 0)⟩

end EventBus
end CoreCDTL
