import CoreCDTL.EventBus.Locks

/-!
# The flow of tasks on the event bus

* `mainStep_frame`: what a step of `bus_shutdown` leaves as it is.
* `step_ring`, `step_worker`: what a step does to the ring and to the position of a worker.
* `Queued`: the tasks that entered the ring are those taken from it and those in it, in order.
* `Flow`: the ring is well formed, the tasks leave it in the order in which they entered it, and it is
  empty once a worker leaves its loop.
-/

set_option linter.unusedSectionVars false

namespace CoreCDTL
namespace EventBus

variable {κ : Type} [DecidableEq κ] {s s' : State κ}

/-- The buffers of a task. -/
def Task.ids (k : Task) : List Nat := k.data.toList.map (·.id)

/-- What a step of `bus_shutdown` leaves as it is. -/
structure MainFrame (s s' : State κ) : Prop where
  call : s'.call = s.call
  buffers : s'.buffers = s.buffers
  queue : s'.queue = s.queue
  entered : s'.entered = s.entered
  taken : s'.taken = s.taken
  called : s'.called = s.called
  down : s.shutDown = true → s'.shutDown = true
  worker : ∀ i, s'.worker i = s.worker i ∨ (i ∈ s.notEmpty ∧ s'.worker i = .lock)
  freed : s'.freed = s.freed ∨
    (s.main = .drain ∧ s'.freed = s.freed ++ (s.queue.contents MAX_TASKS).flatMap Task.ids)

theorem mainStep_frame (h : mainStep s = some s') : MainFrame s s' := by
  have frame : ∀ (subs : List Sub) (sub queue : Mutex (Thread κ)) (m : MainPc),
      MainFrame s { s with subs := subs, subMutex := sub, queueMutex := queue, main := m } :=
    fun _ _ _ _ => ⟨rfl, rfl, rfl, rfl, rfl, rfl, fun h => h, fun _ => .inl rfl, .inl rfl⟩
  have move := mainStep_moves h
  generalize hm : s.main = m at move
  cases move with
  | lock => exact frame s.subs s.subMutex _ .broadcast
  | broadcast =>
    refine ⟨rfl, rfl, rfl, rfl, rfl, rfl, fun _ => rfl, fun i => ?_, .inl rfl⟩
    by_cases hi : i ∈ s.notEmpty
    · exact .inr ⟨hi, if_pos hi⟩
    · exact .inl (if_neg hi)
  | unlock => exact frame s.subs s.subMutex s.queueMutex.unlock (.join 0)
  | @join i => exact frame s.subs s.subMutex s.queueMutex (.join (i + 1))
  | joined => exact frame s.subs s.subMutex s.queueMutex .drain
  | drain => exact ⟨rfl, rfl, rfl, rfl, rfl, rfl, fun h => h, fun _ => .inl rfl, .inr ⟨hm, rfl⟩⟩
  | destroyQueue => exact frame s.subs s.subMutex s.queueMutex.destroy .subLock
  | subLock => exact frame s.subs _ s.queueMutex .freeSubs
  | freeSubs => exact frame [] s.subMutex s.queueMutex .subUnlock
  | subUnlock => exact frame s.subs s.subMutex.unlock s.queueMutex .destroySub
  | destroySub => exact frame s.subs s.subMutex.destroy s.queueMutex .done

/-! ## The ring -/

/-- What a step does to the ring. -/
inductive RingMove (s : State κ) (l : Label κ) (s' : State κ) : Prop where
  | keep (queue : s'.queue = s.queue) (entered : s'.entered = s.entered)
      (taken : s'.taken = s.taken)
  | push {t : Caller κ} {o : Outcome} {a : PublishArgs} {k : Task} (label : l = .go t o)
      (at_ : s.call t = some (.enqueueTest a k)) (room : s.queue.count ≠ MAX_TASKS)
      (up : s.shutDown = false) (queue : s'.queue = s.queue.push MAX_TASKS k)
      (entered : s'.entered = s.entered ++ [(a, k)]) (taken : s'.taken = s.taken)
  | pop {i : Worker} {o : Outcome} (label : l = .work i o) (nonempty : s.queue.count ≠ 0)
      (queue : s'.queue = s.queue.pop MAX_TASKS) (entered : s'.entered = s.entered)
      (taken : s'.taken = s.taken ++ [(i, s.queue.front)])

theorem step_ring {l : Label κ} (h : (bus κ).step l s = some s') :
    RingMove s l s' := by
  have quiet : ∀ {t : Caller κ} {next}, Quiet s s' t next → RingMove s l s' := fun hq =>
    .keep hq.queue (congrArg Core.entered hq.core) (congrArg Core.taken hq.core)
  cases step_moves h with
  | call _ _ hq => exact quiet hq
  | go at_ move =>
    cases move with
    | lockSub hq => exact quiet hq
    | inside hq => exact quiet hq
    | unlockSub hq => exact quiet hq
    | outside hq => exact quiet hq
    | @push a k i rest room up wake => cases i <;> exact .push rfl at_ room up rfl rfl rfl
    | _ => exact .keep rfl rfl rfl
  | @work i o _ move =>
    generalize s.worker i = w at move
    cases move with
    | @pop t rest nonempty wake =>
      obtain ⟨call, hwake⟩ := wakeCaller_frame { s with
        queue := s.queue.pop MAX_TASKS, taken := s.taken ++ [(i, s.queue.front)], notFull := rest } t
      rw [hwake]
      exact .pop rfl nonempty rfl rfl rfl
    | _ => exact .keep rfl rfl rfl
  | ret => exact .keep rfl rfl rfl
  | @crashIn t =>
    obtain ⟨_, _, hr⟩ := recover_frame s t
    rw [hr]
    exact .keep rfl rfl rfl
  | @crashOut t =>
    obtain ⟨_, _, hr⟩ := recover_frame s t
    rw [hr]
    exact .keep rfl rfl rfl
  | @wakeCaller t =>
    obtain ⟨call, hwake⟩ := wakeCaller_frame { s with notFull := s.notFull.erase t } (some t)
    rw [hwake]
    exact .keep rfl rfl rfl
  | wakeWorker => exact .keep rfl rfl rfl
  | shutdown => exact .keep rfl rfl rfl
  | main step =>
    have hm := mainStep_frame step
    exact .keep hm.queue hm.entered hm.taken

/-! ## The workers -/

/-- On the way out of the loop. -/
def WorkerPc.gone : WorkerPc → Bool
  | leave | exited => true
  | _ => false

/-- The task of a worker before it calls the callback. -/
def WorkerPc.toCall : WorkerPc → List Task
  | unlock k | dispatch k => [k]
  | _ => []

/-- What a step does to the position of a worker. -/
inductive WorkerMove (s s' : State κ) (j : Worker) : Prop where
  | same (worker : s'.worker j = s.worker j)
  /-- To a position before it takes a task, or after it has called the callback. -/
  | idle (empty : (s'.worker j).toCall = []) (stays : (s'.worker j).gone = false)
  | takes (nonempty : s.queue.count ≠ 0) (worker : s'.worker j = .unlock s.queue.front)
  | unlocks (k : Task) (before : s.worker j = .unlock k) (worker : s'.worker j = .dispatch k)
  | leaves (down : s.shutDown = true) (empty : s.queue.count = 0) (worker : s'.worker j = .leave)
  | exits (before : s.worker j = .leave) (worker : s'.worker j = .exited)

/-- A worker that moves to `w`, when only it moves. -/
theorem workerMove_at {i : Worker} {w : WorkerPc}
    (worker : s'.worker = Function.update s.worker i w)
    (move : s'.worker i = w → WorkerMove s s' i) (j : Worker) : WorkerMove s s' j := by
  by_cases hj : j = i
  · rw [hj]
    exact move (by rw [worker, Function.update_self])
  · exact .same (by rw [worker, Function.update_of_ne hj])

theorem step_worker {l : Label κ} (h : (bus κ).step l s = some s') (j : Worker) :
    WorkerMove s s' j := by
  have same : s'.worker = s.worker → WorkerMove s s' j := fun h => .same (congrFun h j)
  have idle : ∀ (i : Worker) (w : WorkerPc), w.toCall = [] → w.gone = false →
      s'.worker = Function.update s.worker i w → WorkerMove s s' j := fun i w h₁ h₂ hu =>
    workerMove_at hu (fun hw => .idle (hw ▸ h₁) (hw ▸ h₂)) j
  have crash : ∀ t, s' = s.recover t → WorkerMove s s' j := by
    rintro t rfl
    cases t with
    | client k => exact same rfl
    | worker i =>
      cases hw : s.worker i with
      | running task =>
        exact idle i (.recover task) rfl rfl (congrArg State.worker (recover_worker hw))
      | _ => exact same (by simp only [State.recover, hw])
  cases step_moves h with
  | call outside up hq => exact same hq.worker
  | go at_ move =>
    cases move with
    | lockSub hq => exact same hq.worker
    | inside hq => exact same hq.worker
    | unlockSub hq => exact same hq.worker
    | outside hq => exact same hq.worker
    | @push _ _ i =>
      cases i with
      | none => exact same rfl
      | some i => exact idle i .lock rfl rfl rfl
    | _ => exact same rfl
  | @work i o _ move =>
    generalize hw : s.worker i = w at move
    cases move with
    | lock => exact idle i .test rfl rfl rfl
    | sleep => exact idle i .wait rfl rfl rfl
    | drained empty down => exact workerMove_at rfl (fun h => .leaves down empty h) j
    | pop nonempty =>
      refine workerMove_at (i := i) ?_ (fun h => .takes nonempty h) j
      simp only [State.gotoWorker, wakeCaller_worker]
    | @unlock k => exact workerMove_at rfl (fun h => .unlocks k hw h) j
    | dispatch => exact idle i (.running _) rfl rfl rfl
    | skip => exact idle i (.freeing _) rfl rfl rfl
    | recover => exact idle i .lock rfl rfl rfl
    | free => exact idle i .lock rfl rfl rfl
    | exit => exact workerMove_at rfl (fun h => .exits hw h) j
  | @ret i task => exact idle i (.freeing task) rfl rfl rfl
  | @crashIn t => exact crash t rfl
  | @crashOut t => exact crash t rfl
  | @wakeCaller t => exact same (by rw [wakeCaller_worker])
  | @wakeWorker i => exact idle i .lock rfl rfl rfl
  | shutdown => exact same rfl
  | main step =>
    rcases (mainStep_frame step).worker j with he | ⟨-, he⟩
    · exact .same he
    · exact .idle (by rw [he]; rfl) (by rw [he]; rfl)

/-- A worker leaves its loop after shutdown only, and when the ring is empty. -/
theorem step_gone {l : Label κ} (h : (bus κ).step l s = some s') (j : Worker)
    (hj : (s'.worker j).gone = true) :
    (s.worker j).gone = true ∨ (s.shutDown = true ∧ s.queue.count = 0) := by
  cases step_worker h j with
  | same worker => exact .inl (worker ▸ hj)
  | idle empty stays => rw [stays] at hj; cases hj
  | takes nonempty worker => rw [worker] at hj; cases hj
  | unlocks k before worker => rw [worker] at hj; cases hj
  | leaves down empty => exact .inr ⟨down, empty⟩
  | exits before => exact .inl (by rw [before]; rfl)

/-- After shutdown the flag stays. -/
theorem step_down {l : Label κ} (h : (bus κ).step l s = some s') (hd : s.shutDown = true) :
    s'.shutDown = true := by
  rcases step_flags h with ⟨-, hf⟩ | rfl | rfl
  · exact hf.trans hd
  · cases step_moves h
    exact hd
  · exact (mainStep_frame h).down hd

/-! ## The queue -/

/-- The tasks that entered the ring are those taken from it and those in it, in order. -/
structure Queued {κ : Type} (s : State κ) : Prop where
  head : s.queue.head < MAX_TASKS
  room : s.queue.count ≤ MAX_TASKS
  fifo : s.entered.map (·.2) = s.taken.map (·.2) ++ s.queue.contents MAX_TASKS

/-- The tail is the slot behind the last task. -/
def Behind (r : Ring Task) : Prop := r.tail = (r.head + r.count) % MAX_TASKS

/-- The ring keeps its tasks under a step that does not write a task to a wrong slot. -/
theorem step_queued {l : Label κ} (hq : Queued s)
    (hb : ∀ t o a k, l = .go t o → s.call t = some (.enqueueTest a k) →
      s.queue.count ≠ MAX_TASKS → s.shutDown = false → Behind s.queue)
    (h : (bus κ).step l s = some s') : Queued s' := by
  cases step_ring h with
  | keep queue entered taken =>
    exact ⟨queue ▸ hq.head, queue ▸ hq.room, by rw [queue, entered, taken]; exact hq.fifo⟩
  | @push t o a k label at_ room up queue entered taken =>
    have hlt : s.queue.count < MAX_TASKS := Nat.lt_of_le_of_ne hq.room room
    have hr : s.queue.Inv MAX_TASKS := ⟨hq.head, hb t o a k label at_ room up, hq.room⟩
    refine ⟨queue ▸ hq.head, queue ▸ hlt, ?_⟩
    rw [queue, entered, taken, Ring.contents_push hr hlt, List.map_append, hq.fifo,
      List.append_assoc]
    rfl
  | pop label nonempty queue entered taken =>
    have hpos : 0 < s.queue.count := Nat.pos_of_ne_zero nonempty
    refine ⟨queue ▸ Nat.mod_lt _ (by decide), ?_, ?_⟩
    · rw [queue]
      exact Nat.le_trans (Nat.sub_le _ _) hq.room
    · rw [queue, entered, taken, List.map_append, hq.fifo, Ring.contents_pop hq.head hpos,
        List.append_assoc]
      rfl

/-- The ring is a queue, which is closed and empty once a worker leaves its loop. -/
structure Flow (s : State κ) : Prop where
  ring : s.queue.Inv MAX_TASKS
  fifo : s.entered.map (·.2) = s.taken.map (·.2) ++ s.queue.contents MAX_TASKS
  closed : ∀ i, (s.worker i).gone = true → s.shutDown = true ∧ s.queue.count = 0

theorem flow_init (subs : List Sub) : Flow (init κ subs) where
  ring := Ring.inv_empty (by decide) _
  fifo := rfl
  closed := fun _ h => nomatch h

theorem Flow.queued (hf : Flow s) : Queued s := ⟨hf.ring.head, hf.ring.count, hf.fifo⟩

/-- Every step keeps the ring well formed. -/
theorem step_ring_inv {l : Label κ} (hr : s.queue.Inv MAX_TASKS) (h : (bus κ).step l s = some s') :
    s'.queue.Inv MAX_TASKS := by
  cases step_ring h with
  | keep queue => exact queue ▸ hr
  | push label at_ room up queue => exact queue ▸ hr.push (Nat.lt_of_le_of_ne hr.count room) _
  | pop label nonempty queue => exact queue ▸ hr.pop (Nat.pos_of_ne_zero nonempty)

/-- Every step keeps the flow. -/
theorem step_flow {l : Label κ} (hf : Flow s) (h : (bus κ).step l s = some s') : Flow s' where
  ring := step_ring_inv hf.ring h
  fifo := (step_queued hf.queued (fun _ _ _ _ _ _ _ _ => hf.ring.tail) h).fifo
  closed := fun i hi => by
    have hdown : s.shutDown = true ∧ s.queue.count = 0 := by
      rcases step_gone h i hi with hg | hg
      · exact hf.closed i hg
      · exact hg
    refine ⟨step_down h hdown.1, ?_⟩
    cases step_ring h with
    | keep queue => exact queue ▸ hdown.2
    | push label at_ room up => rw [up] at hdown; cases hdown.1
    | pop label nonempty => exact absurd hdown.2 nonempty

end EventBus
end CoreCDTL
