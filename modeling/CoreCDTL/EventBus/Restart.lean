import CoreCDTL.EventBus.Startup

/-!
# Restart of the event bus (`bus_shutdown`, then `bus_init`)

`bus_shutdown` sets `g_bus_shut_down`, and nothing sets it back: after the next `bus_init` the workers
leave their loop at once, and `enqueue_task` drops every task.

* `restart`: the state in which `bus_init` is called after `bus_shutdown`.
* `Stays`, `Enqueues`: what a fresh bus does. `stays_iff`: the workers stay exactly when the flag is
  clear.
* `not_restarts`: after a shutdown neither holds for any history.
-/

set_option linter.unusedSectionVars false

namespace CoreCDTL
namespace EventBus

variable {κ : Type} [DecidableEq κ]

/-- `bus_init` is called, and the threads of the pool are gone. -/
def restart (s : State κ) : Boot κ := ⟨{ s with main := .idle }, 0, .pool⟩

/-- No step of the run calls `bus_shutdown`. -/
def NoShutdown (ls : List (BootLabel κ)) : Prop := ∀ l ∈ ls, l ≠ .bus .shutdown

/-- Once `bus_init` has returned with success no worker exits before the next `bus_shutdown`. -/
def Stays (k : κ) (s : State κ) : Prop :=
  ∀ ls u, (boot k).run ls (restart s) = some u → NoShutdown ls → u.pc = .returned 0 →
    ∀ i, u.bus.worker i ≠ .exited

/-- In the run of `ms` from `u` to `v` the thread `t` publishes, and its call returns 0. -/
def Publishes (k : κ) (t : Caller κ) (a : PublishArgs) (ms : List (BootLabel κ)) (u v : Boot κ) :
    Prop :=
  (boot k).run (.bus (.call t (.publish a)) :: ms) u = some v ∧
    (∀ c, .bus (.call t c) ∉ ms) ∧ v.bus.call t = none ∧
    ∃ rs, v.bus.results = u.bus.results ++ rs ∧ (t, 0) ∈ rs

/-- Once `bus_init` has returned with success every publish that matches a subscription and returns 0
before the next `bus_shutdown` has enqueued a task. -/
def Enqueues (k : κ) (s : State κ) : Prop :=
  ∀ ls u, (boot k).run ls (restart s) = some u → NoShutdown ls → u.pc = .returned 0 →
    ∀ t a it ms v, it ∈ u.bus.subs → Matches a it → NoShutdown ms → Publishes k t a ms u v →
      ∃ task, (a, task) ∈ v.bus.entered.drop u.bus.entered.length

/-- The bus behaves as a fresh one. -/
structure Restarts (k : κ) (s : State κ) : Prop where
  stays : Stays k s
  enqueues : Enqueues k s

/-! ## The flag -/

/-- Past the broadcast of `bus_shutdown`. -/
def MainPc.past : MainPc → Bool
  | idle | lock | broadcast => false
  | _ => true

theorem past_keeps : (bus κ).Keeps (fun _ _ => True)
    fun s => s.main.past = true → s.shutDown = true := by
  intro s l s' hs _ h hp
  rcases step_flags h with ⟨hm, hf⟩ | rfl | rfl
  · exact hf.trans (hs (hm ▸ hp))
  · cases step_moves h
    cases hp
  · have move := mainStep_moves h
    generalize hm : s.main = m at move
    cases move with
    | lock => cases hp
    | broadcast => rfl
    | _ => exact (mainStep_frame h).down (hs (by rw [hm]; rfl))

/-- After `bus_shutdown` the flag is set. -/
theorem down_of_done {subs : List Sub} {ls : List (Label κ)} {s : State κ}
    (hr : (bus κ).run ls (init κ subs) = some s) (hd : s.main = .done) : s.shutDown = true := by
  have h₀ : (init κ subs).main.past = true → (init κ subs).shutDown = true := fun h => by cases h
  exact past_keeps.run_all h₀ hr (by rw [hd]; rfl)

/-- The flag and the tasks that were enqueued stay as `bus_shutdown` left them. -/
structure Down (s : State κ) (u : Boot κ) : Prop where
  flag : u.bus.shutDown = true
  entered : u.bus.entered = s.entered

theorem initStep_down {k : κ} {s : State κ} {u v : Boot κ} {ok : Bool} (hd : Down s u)
    (h : initStep k ok u = some v) : Down s v := by
  have move := initStep_moves h
  generalize u.pc = p at move
  cases move <;> exact ⟨hd.flag, hd.entered⟩

theorem down_keeps (k : κ) (s : State κ) : (boot k).Keeps (fun _ _ => True) (Down s) := by
  intro u l v hd _ h
  rcases boot_step h with ⟨m, b, rfl, -, hb, rfl⟩ | ⟨ok, rfl, hi⟩
  · refine ⟨step_down hb hd.flag, ?_⟩
    cases step_ring hb with
    | keep _ entered => exact entered.trans hd.entered
    | push _ _ _ up =>
      have flag := hd.flag
      rw [up] at flag
      cases flag
    | pop _ _ _ entered => exact entered.trans hd.entered
  · exact initStep_down hd hi

/-! ## The workers -/

/-- The number of workers that `bus_init` has created at its position. -/
def InitPc.threads : InitPc → Nat
  | spawn i => i
  | setHead | setTail | setCount | initMutex | initNotEmpty | initNotFull | returned 0 =>
    MAX_INIT_EVENT_BUS_THREADS
  | _ => 0

/-- Before `bus_shutdown` the workers stay in their loop. -/
structure Up (u : Boot κ) : Prop where
  flag : u.bus.shutDown = false
  main : u.bus.main = .idle
  threads : u.pc.threads ≤ u.created
  loops : ∀ i : Worker, i.val < u.created → (u.bus.worker i).gone = false

theorem up_restart {s : State κ} (h : s.shutDown = false) : Up (restart s) where
  flag := h
  main := rfl
  threads := Nat.le_refl 0
  loops := fun _ hi => absurd hi (Nat.not_lt_zero _)

theorem initStep_up {k : κ} {u v : Boot κ} {ok : Bool} (hu : Up u)
    (h : initStep k ok u = some v) : Up v := by
  have ht := hu.threads
  have move := initStep_moves h
  generalize u.pc = p at move ht
  cases move with
  | enter | fail => exact ⟨hu.flag, hu.main, Nat.zero_le _, hu.loops⟩
  | pool =>
    refine ⟨hu.flag, hu.main, ?_, hu.loops⟩
    cases ok <;> exact Nat.zero_le _
  | @spawn i =>
    refine ⟨hu.flag, hu.main, Nat.le_refl _, fun j hj => ?_⟩
    by_cases hji : j = i
    · have hw : (u.bus.gotoWorker i .lock).worker j = .lock := by
        rw [hji]
        exact Function.update_self ..
      rw [hw]
      rfl
    · have hlt : j.val < u.created := by
        have : j.val ≠ i.val := fun e => hji (Fin.ext e)
        have : j.val < i.val + 1 := hj
        have : i.val ≤ u.created := ht
        omega
      exact (congrArg WorkerPc.gone (Function.update_of_ne hji _ _)).trans (hu.loops j hlt)
  | spawned all => exact ⟨hu.flag, hu.main, Nat.le_trans all ht, hu.loops⟩
  | setHead | setTail | setCount | initMutex | initNotEmpty | initNotFull =>
    exact ⟨hu.flag, hu.main, ht, hu.loops⟩

theorem up_keeps (k : κ) : (boot k).Keeps (fun _ l => l ≠ .bus .shutdown) (Up (κ := κ)) := by
  intro u l v hu hl h
  rcases boot_step h with ⟨m, b, rfl, -, hb, rfl⟩ | ⟨ok, rfl, hi⟩
  · have hflags : b.main = u.bus.main ∧ b.shutDown = u.bus.shutDown := by
      rcases step_flags hb with hf | rfl | rfl
      · exact hf
      · exact absurd rfl hl
      · have move := mainStep_moves hb
        rw [hu.main] at move
        cases move
    refine ⟨hflags.2.trans hu.flag, hflags.1.trans hu.main, hu.threads, fun i hi => ?_⟩
    by_contra hg
    rcases step_gone hb i (Bool.not_eq_false _ ▸ hg) with h₁ | ⟨h₁, -⟩
    · rw [hu.loops i hi] at h₁; cases h₁
    · rw [hu.flag] at h₁; cases h₁
  · exact initStep_up hu hi

/-- A worker that exists takes its step. -/
theorem boot_work {k : κ} {i : Worker} {u : Boot κ} {b : State κ} (hi : i.val < u.created)
    (h : workerStep i .ok u.bus = some b) :
    (boot k).step (.bus (.work i .ok)) u = some { u with bus := b } := by
  have hr : u.runs k (.work i .ok) = true := decide_eq_true hi
  have hb : (bus κ).step (.work i .ok) u.bus = some b := h
  simp only [boot, hr, hb, ↓reduceIte, Option.map_some]

/-- With the flag set and an empty ring a worker exits. -/
theorem worker_exits (k : κ) {i : Worker} {u : Boot κ} (hi : i.val < u.created)
    (hd : u.bus.shutDown = true) (hw : u.bus.worker i = .lock) (hm : u.bus.queueMutex = .free)
    (hq : u.bus.queue.count = 0) :
    ∃ v, (boot k).run (List.replicate 3 (.bus (.work i .ok))) u = some v ∧ v.pc = u.pc ∧
      v.bus.worker i = .exited := by
  have moved : ∀ (s : State κ) (w : WorkerPc), (s.gotoWorker i w).worker i = w :=
    fun s w => Function.update_self ..
  obtain ⟨b₁, h₁, hw₁, hd₁, hq₁⟩ : ∃ b, workerStep i .ok u.bus = some b ∧ b.worker i = .test ∧
      b.shutDown = true ∧ b.queue.count = 0 := by
    simp only [workerStep, hw, hm, Mutex.lock, Option.map_some]
    exact ⟨_, rfl, moved .., hd, hq⟩
  obtain ⟨b₂, h₂, hw₂⟩ : ∃ b, workerStep i .ok b₁ = some b ∧ b.worker i = .leave :=
    ⟨b₁.gotoWorker i .leave, by simp [workerStep, hw₁, hd₁, hq₁], moved ..⟩
  obtain ⟨b₃, h₃, hw₃⟩ : ∃ b, workerStep i .ok b₂ = some b ∧ b.worker i = .exited := by
    simp only [workerStep, hw₂]
    exact ⟨_, rfl, moved ..⟩
  have s₂ := @boot_work κ _ k i ⟨b₁, u.created, u.pc⟩ b₂ hi h₂
  have s₃ := @boot_work κ _ k i ⟨b₂, u.created, u.pc⟩ b₃ hi h₃
  refine ⟨⟨b₃, u.created, u.pc⟩, Machine.run_cons_some.mpr ⟨_, boot_work hi h₁, ?_⟩, rfl, hw₃⟩
  exact Machine.run_cons_some.mpr ⟨_, s₂, Machine.run_cons_some.mpr ⟨_, s₃, rfl⟩⟩

/-- `bus_init` succeeds, and the last worker takes three steps. -/
def exits : List (BootLabel κ) :=
  List.replicate 13 (.init true) ++ List.replicate 3 (.bus (.work 4 .ok))

/-- With the flag set the last worker exits. -/
theorem exits_run (k : κ) {s : State κ} (h : s.shutDown = true) :
    ∃ u, (boot k).run exits (restart s) = some u ∧ u.pc = .returned 0 ∧
      u.bus.worker 4 = .exited := by
  have step : ∀ {l : BootLabel κ} {ls : List (BootLabel κ)} {u v : Boot κ},
      (boot k).step l u = some v →
      (∃ w, (boot k).run ls v = some w ∧ w.pc = .returned 0 ∧ w.bus.worker 4 = .exited) →
      ∃ w, (boot k).run (l :: ls) u = some w ∧ w.pc = .returned 0 ∧ w.bus.worker 4 = .exited :=
    fun hs ⟨w, hr, hw⟩ => ⟨w, Machine.run_cons_some.mpr ⟨_, hs, hr⟩, hw⟩
  unfold exits restart
  iterate 13
    refine step rfl ?_
    dsimp only [State.gotoWorker]
  exact worker_exits k (i := 4) (show 4 < 5 by decide) h rfl rfl rfl

/-- **The workers stay exactly when the flag is clear.** -/
theorem stays_iff (k : κ) (s : State κ) : Stays k s ↔ s.shutDown = false := by
  constructor
  · intro hs
    by_contra hd
    obtain ⟨u, hr, hpc, he⟩ := exits_run k (Bool.not_eq_false _ ▸ hd)
    exact hs exits u hr (by simp [NoShutdown, exits]) hpc 4 he
  · intro hd ls u hr hl hpc i he
    have hu := (up_keeps k).run (up_restart hd) (Machine.Meets.of_mem (fun _ => hl) _) hr
    have hi : i.val < u.created := by
      have := hu.threads
      rw [hpc] at this
      exact Nat.lt_of_lt_of_le i.isLt this
    have := hu.loops i hi
    rw [he] at this
    cases this

/-- **The bus cannot be restarted.** After any history that ends with `bus_shutdown` the next
`bus_init` gives a bus whose workers exit, and no run before the next `bus_shutdown` enqueues a
task. -/
theorem not_restarts (k : κ) {subs : List Sub} {ls : List (Label κ)} {s : State κ}
    (hr : (bus κ).run ls (init κ subs) = some s) (hd : s.main = .done) :
    ¬ Restarts k s ∧ ∀ ms u, (boot k).run ms (restart s) = some u → NoShutdown ms →
      u.bus.entered = s.entered := by
  have hdown := down_of_done hr hd
  refine ⟨fun h => ?_, fun ms u hu _ => ?_⟩
  · rw [(stays_iff k s).mp h.stays] at hdown
    cases hdown
  · exact ((down_keeps k s).run_all (show Down s (restart s) from ⟨hdown, rfl⟩) hu).entered

/-- A client subscribes and publishes, worker 0 takes the task and frees it, and `bus_shutdown` runs to
its end. -/
def history : List (Label Unit) :=
  .call core (.subscribe ⟨1, .obj ['e'], some 1, 0⟩) :: List.replicate 5 (.go core .ok) ++
    .call core (.publish ⟨1, .obj ['e'], .obj [7], 1⟩) :: List.replicate 7 (.go core .ok) ++
    List.replicate 4 (.work 0 .ok) ++ [.ret 0, .work 0 .ok, .shutdown, .main, .main, .main] ++
    (List.finRange MAX_INIT_EVENT_BUS_THREADS).flatMap (fun i => List.replicate 3 (.work i .ok)) ++
    List.replicate 12 .main

theorem not_restarts_history :
    ∃ s, (bus Unit).run history (init Unit []) = some s ∧ s.main = .done ∧ ¬ Restarts () s := by
  have hrun : ((bus Unit).run history (init Unit [])).any fun s => decide (s.main = .done) := by
    decide +kernel
  obtain ⟨s, hs, hd⟩ := Option.any_eq_true _ _ |>.mp hrun
  have hd : s.main = .done := of_decide_eq_true hd
  exact ⟨s, hs, hd, (not_restarts () hs hd).1⟩

/-- **A dead bus.** After the restart a worker exits; a subscription and a matching publish return 0,
and no task was enqueued. -/
theorem restarted_bus_dead :
    ∃ s, (bus Unit).run history (init Unit []) = some s ∧ s.main = .done ∧
      ¬ Stays () s ∧ ¬ Enqueues () s := by
  have hrun : ((bus Unit).run history (init Unit [])).any (fun s => decide (s.main = .done) &&
      ((boot ()).run (exits ++ subscribes) (restart s)).any fun u =>
        decide (u.pc = .returned 0 ∧ u.bus.worker 4 = .exited ∧
          u.bus.subs = [⟨['e'], 1, 1, 0⟩]) &&
        ((boot ()).run publishes u).any fun v =>
          decide (v.bus.call core = none ∧ v.bus.results = u.bus.results ++ [(core, 0)] ∧
            v.bus.entered.drop u.bus.entered.length = [])) = true := by
    decide +kernel
  obtain ⟨s, hs, hrest⟩ := Option.any_eq_true _ _ |>.mp hrun
  obtain ⟨hd, hrest⟩ := Bool.and_eq_true_iff.mp hrest
  obtain ⟨u, hu, hrest⟩ := Option.any_eq_true _ _ |>.mp hrest
  obtain ⟨hpu, hrest⟩ := Bool.and_eq_true_iff.mp hrest
  obtain ⟨v, hv, hpv⟩ := Option.any_eq_true _ _ |>.mp hrest
  obtain ⟨hpc, hw, hsubs⟩ := of_decide_eq_true hpu
  obtain ⟨hcall, hres, hdrop⟩ := of_decide_eq_true hpv
  have hquiet : NoShutdown (exits ++ subscribes) := by
    simp [NoShutdown, exits, subscribes]
  have hgo : NoShutdown (List.replicate 7 (.bus (.go core .ok))) := by
    simp [NoShutdown]
  have hone : ∀ c, .bus (.call core c) ∉ List.replicate 7 (BootLabel.bus (.go core .ok)) := by
    simp
  refine ⟨s, hs, of_decide_eq_true hd, fun h => h _ u hu hquiet hpc 4 hw, fun h => ?_⟩
  obtain ⟨task, htask⟩ := h _ u hu hquiet hpc core _ ⟨['e'], 1, 1, 0⟩ _ v
    (by rw [hsubs]; exact List.mem_singleton_self _) ⟨rfl, rfl⟩
    hgo ⟨hv, hone, hcall, [(core, 0)], hres, List.mem_singleton_self _⟩
  rw [hdrop] at htask
  cases htask

end EventBus
end CoreCDTL
