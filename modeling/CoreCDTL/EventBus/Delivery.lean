import CoreCDTL.EventBus.Flow
import CoreCDTL.Lib.Tickets
import Mathlib.Algebra.BigOperators.Fin

/-!
# Delivery on the event bus

A task goes from the publisher into the ring, from there into the hand of a worker, which calls the
callback and frees the data, also after a crash of the callback.

* `Sources`: every task that is in the ring, or on the way to it, was made by a `bus_publish` with a
  matching subscription and carries the published bytes (`Published`).
* `Custody`: a task that left the ring is in the hand of the worker that took it, or was called and
  freed; the two equations count calls and frees.
* `delivered`: after every run each task that entered the ring is taken by one worker, called once
  and freed once, or is on its way there, and when all workers have exited none is left.
-/

set_option linter.unusedSectionVars false

namespace CoreCDTL
namespace EventBus

variable {κ : Type} [DecidableEq κ]

/-! ## Where tasks come from -/

/-- The task is one that `bus_publish` makes from the arguments `a`: for a matching subscription, with
a copy of the `len` bytes at `data`. -/
def Published (a : PublishArgs) (k : Task) : Prop :=
  ∃ it b, k = ⟨some b, a.len, some it⟩ ∧ Matches a it ∧ readable a.data a.len = some b.bytes

/-- What a position promises about the task. -/
def CallPc.Good : CallPc → Prop
  | publishCopy a it => Matches a it
  | enqueueLock a k | enqueueTest a k | enqueueWait a k => Published a k
  | _ => True

/-- The buffer of the task that a call is about to enqueue. -/
def CallPc.ticket (c : CallPc) : Option Nat := c.pending.bind fun p => p.2.data.map (·.id)

/-- The buffers that the callers have not enqueued yet. -/
def State.held (s : State κ) : Caller κ → Option Nat := fun t => (s.call t).bind CallPc.ticket

/-- The tasks in the ring and on the way to it are published tasks, each with its own buffer. -/
structure Sources (s : State κ) : Prop where
  good : ∀ t c, s.call t = some c → c.Good
  published : ∀ p ∈ s.entered, Published p.1 p.2
  buffers : Tickets s.held (s.entered.flatMap fun p => p.2.ids) s.buffers

theorem CallPc.good_of_quiet {n : CallPc} (h : n.enqueues = false)
    (found : ∀ a it, n = .publishCopy a it → Matches a it) : n.Good := by
  cases n with
  | publishCopy a it => exact found a it rfl
  | enqueueLock | enqueueTest | enqueueWait => cases h
  | _ => trivial

theorem CallPc.ticket_of_enqueues {n : CallPc} (h : n.enqueues = false) : n.ticket = none := by
  rw [ticket, pending_of_enqueues h]
  rfl

theorem ne_copy_of_holdsSub {n : CallPc} (h : n.holdsSub = false) (a : PublishArgs) (it : Sub) :
    n ≠ .publishCopy a it := by
  rintro rfl
  cases h

theorem sources_init (subs : List Sub) : Sources (init κ subs) where
  good := fun _ _ h => nomatch h
  published := fun _ h => nomatch h
  buffers := Tickets.empty 0

section Sources

variable {s s' : State κ}

/-- The buffers after a caller has moved. -/
theorem held_update {t : Caller κ} {next : Option CallPc}
    (call : s'.call = Function.update s.call t next) :
    s'.held = Function.update s.held t (next.bind CallPc.ticket) := by
  funext u
  unfold State.held
  rw [call]
  by_cases hu : u = t
  · rw [hu, Function.update_self, Function.update_self]
  · rw [Function.update_of_ne hu, Function.update_of_ne hu]

theorem good_update (hs : ∀ t c, s.call t = some c → c.Good) {t : Caller κ} {next : Option CallPc}
    (call : s'.call = Function.update s.call t next) (good : ∀ n ∈ next, n.Good) :
    ∀ u c, s'.call u = some c → c.Good := by
  intro u c hc
  rw [call] at hc
  by_cases hu : u = t
  · rw [hu, Function.update_self] at hc; exact good c hc
  · rw [Function.update_of_ne hu] at hc; exact hs u c hc

/-- A caller moves, with the buffer that it had. -/
theorem Sources.keep (hs : Sources s) {t : Caller κ} {next : Option CallPc}
    (call : s'.call = Function.update s.call t next) (good : ∀ n ∈ next, n.Good)
    (ticket : next.bind CallPc.ticket = s.held t) (entered : s'.entered = s.entered)
    (buffers : s'.buffers = s.buffers) : Sources s' where
  good := good_update hs.good call good
  published := entered ▸ hs.published
  buffers := by
    rw [held_update call, ticket, Function.update_eq_self, entered, buffers]
    exact hs.buffers

/-- A caller moves, without a task. -/
theorem Sources.drop (hs : Sources s) {t : Caller κ} {next : Option CallPc}
    (call : s'.call = Function.update s.call t next) (good : ∀ n ∈ next, n.Good)
    (ticket : next.bind CallPc.ticket = none) (entered : s'.entered = s.entered)
    (buffers : s'.buffers = s.buffers) : Sources s' where
  good := good_update hs.good call good
  published := entered ▸ hs.published
  buffers := by
    rw [held_update call, ticket, entered, buffers]
    exact hs.buffers.drop t

theorem Sources.quiet (hs : Sources s) {t : Caller κ} {next : Option CallPc}
    (hq : Quiet s s' t next) (found : ∀ n ∈ next, ∀ a it, n = .publishCopy a it → Matches a it)
    (buffers : s'.buffers = s.buffers) : Sources s' := by
  refine hs.drop hq.call (fun n hn => CallPc.good_of_quiet (hq.outside n hn) (found n hn)) ?_
    (congrArg Core.entered hq.core) buffers
  cases next with
  | none => rfl
  | some n => exact CallPc.ticket_of_enqueues (hq.outside n rfl)

/-- Nobody moves in a bus call. -/
theorem Sources.congr (hs : Sources s) (call : s'.call = s.call) (entered : s'.entered = s.entered)
    (buffers : s'.buffers = s.buffers) : Sources s' where
  good := call ▸ hs.good
  published := entered ▸ hs.published
  buffers := by
    unfold State.held
    rw [call, entered, buffers]
    exact hs.buffers

theorem Sources.wakeCaller (hs : Sources s) (t : Option (Caller κ)) : Sources (s.wakeCaller t) := by
  unfold State.wakeCaller
  split
  · exact hs
  · rename_i u
    split
    · rename_i a k hc
      refine hs.keep rfl (fun n hn => ?_) ?_ rfl rfl
      · cases Option.mem_some_iff.mp hn
        exact (hs.good u _ hc : (CallPc.enqueueWait a k).Good)
      · rw [State.held, hc]; rfl
    · exact hs

theorem CallMove.sources (hs : Sources s) {t : Caller κ} {o : Outcome} {c : CallPc}
    (at_ : s.call t = some c) (move : CallMove s t o c s') : Sources s' := by
  have one : ∀ {n m : CallPc}, m ∈ some n → m = n := fun h => (Option.mem_some_iff.mp h).symm
  have good := hs.good t c at_
  have held : s.held t = c.ticket := by rw [State.held, at_]; rfl
  cases move with
  | lockSub quiet _ _ _ found _ buffers =>
    exact hs.quiet quiet (fun n hn a it e => absurd ((one hn).symm.trans e) (found a it)) buffers
  | inside quiet _ _ _ found _ buffers =>
    exact hs.quiet quiet (fun n hn a it e => found a it ((one hn).symm.trans e)) buffers
  | @copies a it bytes read =>
    have hp : Published a ⟨some ⟨s.buffers, bytes⟩, a.len, some it⟩ := ⟨it, _, rfl, good, read⟩
    exact {
      good := good_update hs.good rfl fun n hn => by cases one hn; exact hp
      published := hs.published
      buffers := by
        rw [@held_update κ _ s _ _ _ rfl]
        exact hs.buffers.draw t }
  | unlockSub quiet _ _ after _ buffers =>
    exact hs.quiet quiet
      (fun n hn a it e => absurd e (ne_copy_of_holdsSub (after n hn).1 a it)) buffers
  | outside quiet _ _ after _ _ _ buffers =>
    exact hs.quiet quiet
      (fun n hn a it e => absurd e (ne_copy_of_holdsSub (after n hn) a it)) buffers
  | enqueueLock =>
    exact hs.keep rfl (fun n hn => by cases one hn; exact good) (by rw [held]; rfl) rfl rfl
  | sleep =>
    exact hs.keep rfl (fun n hn => by cases one hn; exact good) (by rw [held]; rfl) rfl rfl
  | refuse => exact hs.drop rfl (fun n hn => by cases one hn; trivial) rfl rfl rfl
  | @push a k i rest room up wake =>
    have hs₁ : Sources ({ s with queue := s.queue.push MAX_TASKS k
                                 entered := s.entered ++ [(a, k)]
                                 notEmpty := rest }.goto t .enqueueUnlock) := {
      good := good_update hs.good rfl fun n hn => by cases one hn; trivial
      published := fun p hp => by
        rcases List.mem_append.mp hp with hp | hp
        · exact hs.published p hp
        · rw [List.mem_singleton.mp hp]; exact good
      buffers := by
        obtain ⟨it, b, rfl, -, -⟩ := good
        rw [@held_update κ _ s _ _ _ rfl]
        show Tickets _ ((s.entered ++ [(a, (⟨some b, a.len, some it⟩ : Task))]).flatMap _) s.buffers
        rw [List.flatMap_append]
        exact hs.buffers.deposit held }
    cases i with
    | none => exact hs₁
    | some i => exact hs₁.congr rfl rfl rfl
  | enqueueUnlock => exact hs.drop rfl (fun n hn => by cases one hn; trivial) rfl rfl rfl

theorem WorkMove.sources (hs : Sources s) {i : Worker} {o : Outcome} {w : WorkerPc}
    (move : WorkMove s i o w s') : Sources s' := by
  cases move with
  | @pop t rest =>
    have hs₁ : Sources { s with queue := s.queue.pop MAX_TASKS
                                taken := s.taken ++ [(i, s.queue.front)]
                                notFull := rest } := hs.congr rfl rfl rfl
    exact (hs₁.wakeCaller t).congr rfl rfl rfl
  | _ => exact hs.congr rfl rfl rfl

theorem Sources.crash (hs : Sources s) (hp : Pos s) {t : Caller κ}
    (hin : (∃ c, s.call t = some c) ∨ s.isOutside t = true) : Sources (s.recover t) := by
  obtain ⟨_, _, hr⟩ := recover_frame s t
  exact hs.drop (recover_call hp hin).1 (fun _ h => nomatch h) rfl (by rw [hr]) (by rw [hr])

/-- Every step keeps the sources. -/
theorem step_sources {l : Label κ} (hs : Sources s) (hp : Pos s)
    (h : (bus κ).step l s = some s') : Sources s' := by
  cases step_moves h with
  | @call t c _ outside up quiet mutex buffers =>
    refine hs.quiet quiet (fun n hn a it e => ?_) buffers
    rcases BusCall.first_some hn with ⟨args, rfl⟩ | ⟨args, cb, rfl⟩
    · cases e
    · cases e
  | go at_ move => exact move.sources hs at_
  | work move => exact move.sources hs
  | ret => exact hs.congr rfl rfl rfl
  | crashIn at_ => exact hs.crash hp (.inl ⟨_, at_⟩)
  | crashOut outside => exact hs.crash hp (.inr outside)
  | @wakeCaller t =>
    have hs₁ : Sources { s with notFull := s.notFull.erase t } := hs.congr rfl rfl rfl
    exact hs₁.wakeCaller (some t)
  | wakeWorker => exact hs.congr rfl rfl rfl
  | shutdown => exact hs.congr rfl rfl rfl
  | main step =>
    have hf := mainStep_frame step
    exact hs.congr hf.call hf.entered hf.buffers

end Sources

/-! ## The hands of the workers -/

/-- The task of a worker from the call to the free. -/
def WorkerPc.toFree : WorkerPc → List Task
  | running k | recover k | freeing k => [k]
  | _ => []

/-- The tasks that were taken are called or in a hand before the call; the buffers of those that were
called are freed or in a hand after it. -/
structure Custody (s : State κ) : Prop where
  called : ∀ k, (s.taken.map (·.2)).count k =
    s.called.count k + ∑ i, (s.worker i).toCall.count k
  freed : ∀ n, (s.called.flatMap Task.ids).count n =
    s.freed.count n + ∑ i, ((s.worker i).toFree.flatMap Task.ids).count n
  hand : ∀ i, ∀ k ∈ (s.worker i).toCall ++ (s.worker i).toFree, (i, k) ∈ s.taken

theorem custody_init (subs : List Sub) : Custody (init κ subs) where
  called := fun _ => by simp [init, WorkerPc.toCall]
  freed := fun _ => by simp [init, WorkerPc.toFree]
  hand := fun _ _ h => nomatch h

section Custody

variable {s s' : State κ}

/-- No task changes hands. -/
theorem Custody.congr (hc : Custody s) (taken : s'.taken = s.taken) (called : s'.called = s.called)
    (freed : s'.freed = s.freed)
    (hands : ∀ i, (s'.worker i).toCall = (s.worker i).toCall ∧
      (s'.worker i).toFree = (s.worker i).toFree) : Custody s' where
  called := fun k => by simp only [taken, called, (hands _).1, hc.called k]
  freed := fun n => by simp only [called, freed, (hands _).2, hc.freed n]
  hand := fun i => by rw [(hands i).1, (hands i).2, taken]; exact hc.hand i

/-- A worker moves with its task. -/
theorem hands_update {i : Worker} {w : WorkerPc} (worker : s'.worker = Function.update s.worker i w)
    (toCall : w.toCall = (s.worker i).toCall) (toFree : w.toFree = (s.worker i).toFree) (j : Worker) :
    (s'.worker j).toCall = (s.worker j).toCall ∧ (s'.worker j).toFree = (s.worker j).toFree := by
  rw [worker]
  by_cases hj : j = i
  · rw [hj, Function.update_self]; exact ⟨toCall, toFree⟩
  · rw [Function.update_of_ne hj]; exact ⟨rfl, rfl⟩

/-- A worker moves, and what it takes, calls and frees balances its hands. -/
theorem Custody.work (hc : Custody s) {i : Worker} {w : WorkerPc}
    (worker : s'.worker = Function.update s.worker i w)
    (called : ∀ k, (s'.taken.map (·.2)).count k + s.called.count k + (s.worker i).toCall.count k =
      (s.taken.map (·.2)).count k + s'.called.count k + w.toCall.count k)
    (freed : ∀ n, (s'.called.flatMap Task.ids).count n + s.freed.count n +
        ((s.worker i).toFree.flatMap Task.ids).count n =
      (s.called.flatMap Task.ids).count n + s'.freed.count n +
        (w.toFree.flatMap Task.ids).count n)
    (taken : ∀ p ∈ s.taken, p ∈ s'.taken)
    (hand : ∀ k ∈ w.toCall ++ w.toFree, (i, k) ∈ s'.taken) : Custody s' where
  called := fun k => by
    have h₁ := hc.called k
    have h₂ := called k
    have h₃ := sum_update (fun w => w.toCall.count k) s.worker i w
    rw [worker]
    omega
  freed := fun n => by
    have h₁ := hc.freed n
    have h₂ := freed n
    have h₃ := sum_update (fun w => (w.toFree.flatMap Task.ids).count n) s.worker i w
    rw [worker]
    omega
  hand := fun j => by
    rw [worker]
    by_cases hj : j = i
    · rw [hj, Function.update_self]; exact hand
    · rw [Function.update_of_ne hj]; exact fun k hk => taken _ (hc.hand j k hk)

theorem CallMove.custody (hc : Custody s) (hp : Pos s) {t : Caller κ} {o : Outcome} {c : CallPc}
    (move : CallMove s t o c s') : Custody s' := by
  have quiet : ∀ {next}, Quiet s s' t next → Custody s' := fun hq =>
    hc.congr (congrArg Core.taken hq.core) (congrArg Core.called hq.core)
      (congrArg Core.freed hq.core) fun i => by rw [hq.worker]; exact ⟨rfl, rfl⟩
  cases move with
  | lockSub hq => exact quiet hq
  | inside hq => exact quiet hq
  | unlockSub hq => exact quiet hq
  | outside hq => exact quiet hq
  | @push _ _ i _ _ _ wake =>
    rcases signal_cases wake with ⟨-, rfl, -⟩ | ⟨j, hj, rfl, -⟩
    · exact hc.congr rfl rfl rfl fun _ => ⟨rfl, rfl⟩
    · have hw := (hp.notEmpty j).mp hj
      exact hc.congr rfl rfl rfl (@hands_update κ _ s _ j .lock rfl (by rw [hw]; rfl) (by rw [hw]; rfl))
  | copies | enqueueLock | sleep | refuse | enqueueUnlock =>
    exact hc.congr rfl rfl rfl fun _ => ⟨rfl, rfl⟩

/-- A task that left the ring was published. -/
theorem published_of_taken (hs : Sources s) (hf : Flow s) {i : Worker} {k : Task}
    (h : (i, k) ∈ s.taken) : ∃ a, (a, k) ∈ s.entered ∧ Published a k := by
  have hk : k ∈ s.entered.map (·.2) := by
    rw [hf.fifo]
    exact List.mem_append_left _ (List.mem_map.mpr ⟨(i, k), h, rfl⟩)
  obtain ⟨⟨a, k'⟩, hp, rfl⟩ := List.mem_map.mp hk
  exact ⟨a, hp, hs.published _ hp⟩

theorem WorkMove.custody (hc : Custody s) (hs : Sources s) (hf : Flow s) {i : Worker} {o : Outcome}
    {w : WorkerPc} (at_ : s.worker i = w) (move : WorkMove s i o w s') : Custody s' := by
  have keeps : ∀ {s₁ : State κ} (w' : WorkerPc), w'.toCall = w.toCall → w'.toFree = w.toFree →
      s₁.worker = Function.update s.worker i w' → s₁.taken = s.taken → s₁.called = s.called →
      s₁.freed = s.freed → Custody s₁ := fun w' h₁ h₂ h₃ h₄ h₅ h₆ =>
    hc.congr h₄ h₅ h₆ (hands_update h₃ (at_ ▸ h₁) (at_ ▸ h₂))
  -- A worker that frees its task.
  have frees : ∀ {s₁ : State κ} {k : Task}, w.toCall = [] → w.toFree = [k] →
      s₁.worker = Function.update s.worker i .lock → s₁.taken = s.taken → s₁.called = s.called →
      s₁.freed = s.freed ++ k.ids → Custody s₁ := fun {s₁ k} h₁ h₂ h₃ h₄ h₅ h₆ => by
    refine hc.work h₃ (fun k' => ?_) (fun n => ?_) (fun p hp => h₄ ▸ hp) fun _ h => nomatch h
    · rw [h₄, h₅, at_, h₁]; rfl
    · rw [h₅, h₆, at_, h₂, List.count_append, List.flatMap_singleton]
      simp only [WorkerPc.toFree, List.flatMap_nil, List.count_nil]
      omega
  cases move with
  | lock => exact keeps .test rfl rfl rfl rfl rfl rfl
  | sleep => exact keeps .wait rfl rfl rfl rfl rfl rfl
  | drained => exact keeps .leave rfl rfl rfl rfl rfl rfl
  | @pop t rest =>
    obtain ⟨call, hwake⟩ := wakeCaller_frame { s with
      queue := s.queue.pop MAX_TASKS, taken := s.taken ++ [(i, s.queue.front)], notFull := rest } t
    rw [hwake]
    refine @Custody.work κ _ s _ hc i (.unlock s.queue.front) rfl (fun k => ?_) (fun n => ?_)
      (fun p hp => List.mem_append_left _ hp) fun k hk => ?_
    · show ((s.taken ++ [(i, s.queue.front)]).map (·.2)).count k + _ + _ = _
      rw [List.map_append, List.count_append, at_]
      simp only [WorkerPc.toCall, List.map_cons, List.map_nil, List.count_nil]
      show _ = (s.taken.map (·.2)).count k + s.called.count k + [s.queue.front].count k
      omega
    · rw [at_]; rfl
    · rw [List.mem_singleton.mp hk]
      exact List.mem_append_right _ (List.mem_singleton_self _)
  | @unlock k => exact keeps (.dispatch k) rfl rfl rfl rfl rfl rfl
  | @dispatch k it sub =>
    refine @Custody.work κ _ s _ hc i (.running k) rfl (fun k' => ?_) (fun n => ?_)
      (fun p hp => hp) fun k' hk => hc.hand i k' (by rw [at_]; exact hk)
    · show _ = (s.taken.map (·.2)).count k' + (s.called ++ [k]).count k' + _
      rw [List.count_append, at_]
      simp only [WorkerPc.toCall, List.count_nil]
      show (s.taken.map (·.2)).count k' + s.called.count k' + [k].count k' = _
      omega
    · show ((s.called ++ [k]).flatMap Task.ids).count n + _ + _ = _
      rw [List.flatMap_append, List.count_append, at_]
      simp only [WorkerPc.toFree, List.flatMap_nil, List.count_nil]
      show _ = (s.called.flatMap Task.ids).count n + s.freed.count n + ([k].flatMap Task.ids).count n
      omega
  | @skip k sub =>
    -- A task without a subscription is not published.
    obtain ⟨a, -, it, b, rfl, -⟩ :=
      published_of_taken hs hf (hc.hand i k (by rw [at_]; exact List.mem_singleton_self k))
    cases sub
  | @recover k => exact frees rfl rfl rfl rfl rfl rfl
  | @free k => exact frees rfl rfl rfl rfl rfl rfl
  | exit => exact keeps .exited rfl rfl rfl rfl rfl rfl

theorem Custody.crash (hc : Custody s) (hp : Pos s) {t : Caller κ}
    (hin : (∃ c, s.call t = some c) ∨ s.isOutside t = true) : Custody (s.recover t) := by
  cases t with
  | client k => exact hc.congr rfl rfl rfl fun _ => ⟨rfl, rfl⟩
  | worker i =>
    obtain ⟨k, hw⟩ := hp.running hin
    rw [recover_worker hw]
    exact hc.congr rfl rfl rfl
      (@hands_update κ _ s _ i (.recover k) rfl (by rw [hw]; rfl) (by rw [hw]; rfl))

/-- At the drain of `bus_shutdown` the ring is empty. -/
theorem contents_at_drain (hp : Pos s) (hf : Flow s) (hm : s.main = .drain) :
    s.queue.contents MAX_TASKS = [] := by
  have hx := hp.joined 0 (by rw [hm]; decide)
  exact Ring.contents_nil (hf.closed 0 (by rw [hx]; rfl)).2

/-- Every step keeps the custody. -/
theorem step_custody {l : Label κ} (hc : Custody s) (hs : Sources s) (hf : Flow s) (hp : Pos s)
    (h : (bus κ).step l s = some s') : Custody s' := by
  cases step_moves h with
  | call outside up hq =>
    exact hc.congr (congrArg Core.taken hq.core) (congrArg Core.called hq.core)
      (congrArg Core.freed hq.core) fun i => by rw [hq.worker]; exact ⟨rfl, rfl⟩
  | go at_ move => exact move.custody hc hp
  | work move => exact move.custody hc hs hf rfl
  | @ret i k running =>
    exact hc.congr rfl rfl rfl
      (@hands_update κ _ s _ i (.freeing k) rfl (by rw [running]; rfl) (by rw [running]; rfl))
  | crashIn at_ => exact hc.crash hp (.inl ⟨_, at_⟩)
  | crashOut outside => exact hc.crash hp (.inr outside)
  | @wakeCaller t =>
    obtain ⟨call, hwake⟩ := wakeCaller_frame { s with notFull := s.notFull.erase t } (some t)
    rw [hwake]
    exact hc.congr rfl rfl rfl fun _ => ⟨rfl, rfl⟩
  | @wakeWorker i asleep =>
    have hw := (hp.notEmpty i).mp asleep
    exact hc.congr rfl rfl rfl
      (@hands_update κ _ s _ i .lock rfl (by rw [hw]; rfl) (by rw [hw]; rfl))
  | shutdown => exact hc.congr rfl rfl rfl fun _ => ⟨rfl, rfl⟩
  | main step =>
    have hm := mainStep_frame step
    refine hc.congr hm.taken hm.called ?_ fun i => ?_
    · rcases hm.freed with he | ⟨hd, he⟩
      · exact he
      · rw [he, contents_at_drain hp hf hd, List.flatMap_nil, List.append_nil]
    · rcases hm.worker i with he | ⟨hi, he⟩
      · rw [he]; exact ⟨rfl, rfl⟩
      · rw [he, (hp.notEmpty i).mp hi]; exact ⟨rfl, rfl⟩

end Custody

/-! ## Delivery -/

/-- The invariant of every run. -/
structure Delivery (s : State κ) : Prop where
  pos : Pos s
  sources : Sources s
  flow : Flow s
  custody : Custody s

theorem delivery_init (subs : List Sub) : Delivery (init κ subs) :=
  ⟨pos_init subs, sources_init subs, flow_init subs, custody_init subs⟩

theorem delivery_keeps : (bus κ).Keeps (fun _ _ => True) Delivery := by
  intro s l s' hd _ h
  exact ⟨pos_keeps s l s' hd.pos trivial h, step_sources hd.sources hd.pos h,
    step_flow hd.flow h, step_custody hd.custody hd.sources hd.flow hd.pos h⟩

/-- How far a task that worker `i` took has come: the worker has not called its callback, or has not
freed its data, or has done both, each once. -/
inductive Fate (s : State κ) (i : Worker) (k : Task) : Prop where
  | taken (hand : (s.worker i).toCall = [k]) (called : s.called.count k = 0)
      (freed : ∀ n ∈ k.ids, s.freed.count n = 0)
  | called (hand : (s.worker i).toFree = [k]) (called : s.called.count k = 1)
      (freed : ∀ n ∈ k.ids, s.freed.count n = 0)
  | done (called : s.called.count k = 1) (freed : ∀ n ∈ k.ids, s.freed.count n = 1)

theorem WorkerPc.toCall_eq {w : WorkerPc} {k : Task} (h : k ∈ w.toCall) : w.toCall = [k] := by
  cases w with
  | unlock | dispatch => rw [toCall, List.mem_singleton.mp h]
  | _ => cases h

theorem WorkerPc.toFree_eq {w : WorkerPc} {k : Task} (h : k ∈ w.toFree) : w.toFree = [k] := by
  cases w with
  | running | recover | freeing => rw [toFree, List.mem_singleton.mp h]
  | _ => cases h

/-- Counting buffers counts tasks, where the buffer `n` is that of the task `k` only. -/
theorem count_ids {n : Nat} {k : Task} {l : List Task}
    (h : ∀ k' ∈ l, k'.ids.count n = [k'].count k) : (l.flatMap Task.ids).count n = l.count k := by
  induction l with
  | nil => rfl
  | cons x l ih =>
    rw [List.flatMap_cons, List.count_append, h x List.mem_cons_self,
      ih fun k' hk' => h k' (List.mem_cons_of_mem x hk'), ← List.count_append]
    rfl

namespace Delivery

variable {s : State κ}

theorem ids_of_published {a : PublishArgs} {k : Task} (h : Published a k) : ∃ n, k.ids = [n] := by
  obtain ⟨it, b, rfl, -⟩ := h
  exact ⟨b.id, rfl⟩

/-- A task that entered the ring has one buffer. -/
theorem ids (hd : Delivery s) {k : Task} (h : k ∈ s.entered.map (·.2)) : ∃ n, k.ids = [n] := by
  obtain ⟨⟨a, k⟩, hp, rfl⟩ := List.mem_map.mp h
  exact ids_of_published (hd.sources.published _ hp)

/-- A buffer belongs to one of the tasks that entered the ring. -/
theorem disjoint (hd : Delivery s) :
    (s.entered.map (·.2)).Pairwise fun k k' => k.ids.Disjoint k'.ids := by
  have h := hd.sources.buffers.nodup
  rw [← List.flatMap_map (f := fun p : PublishArgs × Task => p.2) (g := Task.ids)] at h
  exact (List.nodup_flatMap.mp h).2

theorem eq_of_id (hd : Delivery s) {k k' : Task} {n : Nat} (hk : k ∈ s.entered.map (·.2))
    (hk' : k' ∈ s.entered.map (·.2)) (hn : n ∈ k.ids) (hn' : n ∈ k'.ids) : k = k' := by
  by_contra hne
  have sym : Std.Symm fun k k' : Task => k.ids.Disjoint k'.ids := ⟨fun _ _ h => h.symm⟩
  exact hd.disjoint.forall hk hk' hne hn hn'

theorem nodup (hd : Delivery s) : (s.entered.map (·.2)).Nodup := by
  refine hd.disjoint.imp_of_mem fun {k k'} hk hk' h e => ?_
  obtain ⟨n, hn⟩ := hd.ids hk
  subst e
  exact h (hn ▸ List.mem_singleton_self n) (hn ▸ List.mem_singleton_self n)

theorem entered_of_taken (hd : Delivery s) {k : Task} (h : k ∈ s.taken.map (·.2)) :
    k ∈ s.entered.map (·.2) := by
  rw [hd.flow.fifo]
  exact List.mem_append_left _ h

theorem taken_nodup (hd : Delivery s) : (s.taken.map (·.2)).Nodup := by
  have h := hd.nodup
  rw [hd.flow.fifo] at h
  exact (List.nodup_append.mp h).1

/-- A task is taken by one worker. -/
theorem taken_by_one (hd : Delivery s) {i j : Worker} {k : Task} (hi : (i, k) ∈ s.taken)
    (hj : (j, k) ∈ s.taken) : i = j :=
  congrArg Prod.fst (List.inj_on_of_nodup_map hd.taken_nodup hi hj rfl)

theorem taken_of_called (hd : Delivery s) {k : Task} (h : k ∈ s.called) :
    k ∈ s.taken.map (·.2) := by
  have h₁ := hd.custody.called k
  have h₂ := List.count_pos_iff.mpr h
  exact List.count_pos_iff.mp (by omega)

/-- The buffer of a task is freed or in a hand as often as the task was called. -/
theorem count_called (hd : Delivery s) {k : Task} {n : Nat} (hk : k ∈ s.entered.map (·.2))
    (hn : k.ids = [n]) : (s.called.flatMap Task.ids).count n = s.called.count k := by
  refine count_ids fun k' hk' => ?_
  have hk' := hd.entered_of_taken (hd.taken_of_called hk')
  by_cases e : k' = k
  · rw [e, hn, List.count_singleton_self, List.count_singleton_self]
  · rw [List.count_eq_zero_of_not_mem fun h =>
        e (hd.eq_of_id hk' hk h (hn ▸ List.mem_singleton_self n)),
      List.count_eq_zero_of_not_mem fun h => e (List.mem_singleton.mp h).symm]

theorem fate (hd : Delivery s) {i : Worker} {k : Task} (h : (i, k) ∈ s.taken) : Fate s i k := by
  have ht : k ∈ s.taken.map (·.2) := List.mem_map.mpr ⟨_, h, rfl⟩
  have he := hd.entered_of_taken ht
  obtain ⟨n, hn⟩ := hd.ids he
  have hone : (s.taken.map (·.2)).count k = 1 := List.count_eq_one_of_mem hd.taken_nodup ht
  have hcall := hd.custody.called k
  have hfree := hd.custody.freed n
  rw [hd.count_called he hn] at hfree
  have one : ∀ {m}, s.freed.count n = m → ∀ n' ∈ k.ids, s.freed.count n' = m := fun e n' h => by
    rw [hn, List.mem_singleton] at h
    exact h ▸ e
  rcases Nat.eq_zero_or_pos (s.called.count k) with hc | hc
  · -- Not called, so in the hand of a worker, which is `i`.
    obtain ⟨j, -, hj⟩ := Finset.exists_ne_zero_of_sum_ne_zero
      (s := Finset.univ) (f := fun j => (s.worker j).toCall.count k) (by omega)
    have hmem : k ∈ (s.worker j).toCall := List.count_pos_iff.mp (Nat.pos_of_ne_zero hj)
    have hij := hd.taken_by_one h (hd.custody.hand j k (List.mem_append_left _ hmem))
    exact .taken (WorkerPc.toCall_eq (hij ▸ hmem)) hc (one (by omega))
  · rcases Nat.eq_zero_or_pos (s.freed.count n) with hf | hf
    · obtain ⟨j, -, hj⟩ := Finset.exists_ne_zero_of_sum_ne_zero
        (s := Finset.univ) (f := fun j => ((s.worker j).toFree.flatMap Task.ids).count n) (by omega)
      obtain ⟨k', hk', hn'⟩ :=
        List.mem_flatMap.mp (List.count_pos_iff.mp (Nat.pos_of_ne_zero hj))
      have hj := hd.custody.hand j k' (List.mem_append_right _ hk')
      have hkk := hd.eq_of_id (hd.entered_of_taken (List.mem_map.mpr ⟨_, hj, rfl⟩)) he hn'
        (hn ▸ List.mem_singleton_self n)
      subst hkk
      have hij := hd.taken_by_one h hj
      exact .called (WorkerPc.toFree_eq (hij ▸ hk')) (by omega) (one hf)
    · exact .done (by omega) (one (by omega))

end Delivery

/-- Exactly-once delivery in the order of the ring. -/
structure Delivered (s : State κ) : Prop where
  tail : s.queue.tail = (s.queue.head + s.queue.count) % MAX_TASKS
  count : s.queue.count ≤ MAX_TASKS
  /-- The tasks leave the ring in the order in which they entered it. -/
  fifo : s.entered.map (·.2) = s.taken.map (·.2) ++ s.queue.contents MAX_TASKS
  /-- No two of them share a buffer, so they are different. -/
  buffers : (s.entered.flatMap fun p => p.2.ids).Nodup
  published : ∀ a k, (a, k) ∈ s.entered → Published a k
  once : ∀ i j k, (i, k) ∈ s.taken → (j, k) ∈ s.taken → i = j
  fate : ∀ i k, (i, k) ∈ s.taken → Fate s i k
  queued : ∀ k ∈ s.queue.contents MAX_TASKS,
    s.called.count k = 0 ∧ ∀ n ∈ k.ids, s.freed.count n = 0
  /-- Nothing else is called. -/
  called : ∀ k ∈ s.called, ∃ i, (i, k) ∈ s.taken
  /-- When all workers have exited, no task is left, and each was delivered. -/
  exited : (∀ i, s.worker i = .exited) → s.queue.count = 0 ∧
    ∀ a k, (a, k) ∈ s.entered → (∃! i, (i, k) ∈ s.taken) ∧ s.called.count k = 1 ∧
      ∀ n ∈ k.ids, s.freed.count n = 1

theorem Delivery.outcome {s : State κ} (hd : Delivery s) : Delivered s where
  tail := hd.flow.ring.tail
  count := hd.flow.ring.count
  fifo := hd.flow.fifo
  buffers := hd.sources.buffers.nodup
  published := fun a k h => hd.sources.published (a, k) h
  once := fun i j k => hd.taken_by_one
  fate := fun i k => hd.fate
  queued := fun k hk => by
    have he : k ∈ s.entered.map (·.2) := by
      rw [hd.flow.fifo]
      exact List.mem_append_right _ hk
    obtain ⟨n, hn⟩ := hd.ids he
    have hnot : k ∉ s.taken.map (·.2) := fun ht => by
      have h := hd.nodup
      rw [hd.flow.fifo] at h
      exact (List.nodup_append.mp h).2.2 k ht k hk rfl
    have hcall := hd.custody.called k
    have hfree := hd.custody.freed n
    rw [hd.count_called he hn] at hfree
    rw [List.count_eq_zero_of_not_mem hnot] at hcall
    refine ⟨by omega, fun n' hn' => ?_⟩
    rw [hn, List.mem_singleton] at hn'
    rw [hn']
    omega
  called := fun k hk => by
    obtain ⟨⟨i, k⟩, h, rfl⟩ := List.mem_map.mp (hd.taken_of_called hk)
    exact ⟨i, h⟩
  exited := fun hx => by
    have hzero := (hd.flow.closed 0 (by rw [hx]; rfl)).2
    refine ⟨hzero, fun a k hk => ?_⟩
    have ht : k ∈ s.taken.map (·.2) := by
      have h : k ∈ s.entered.map (·.2) := List.mem_map.mpr ⟨(a, k), hk, rfl⟩
      rwa [hd.flow.fifo, Ring.contents_nil hzero, List.append_nil] at h
    obtain ⟨⟨i, k⟩, hi, rfl⟩ := List.mem_map.mp ht
    refine ⟨⟨i, hi, fun j hj => hd.taken_by_one hj hi⟩, ?_⟩
    rcases hd.fate hi with ⟨hand, -, -⟩ | ⟨hand, -, -⟩ | ⟨called, freed⟩
    · rw [hx] at hand; cases hand
    · rw [hx] at hand; cases hand
    · exact ⟨called, freed⟩

/-- A client publishes, worker 0 takes the task, its callback crashes; then `bus_shutdown` lets the
workers exit. -/
def crashAndExit : List (Label Unit) :=
  .call (.client ()) (.publish ⟨1, .obj ['e'], .obj [7], 1⟩) ::
    List.replicate 7 (.go (.client ()) .ok) ++ List.replicate 4 (.work 0 .ok) ++
    [.crash (.worker 0), .work 0 .ok, .shutdown, .main, .main, .main] ++
    (List.finRange MAX_INIT_EVENT_BUS_THREADS).flatMap fun i => List.replicate 3 (.work i .ok)

end EventBus
end CoreCDTL
