import CoreCDTL.EventBus.Flow

/-!
# Start-up of the event bus (`core/runtime.c`, `bus_init`)

`core_init` runs `plugin_init` before `bus_init`, so plugins use a bus that has no worker yet, and
`bus_init` creates the workers before it sets up the queue that they use.

* `Boot`: the bus, the position of `bus_init` and the number of workers created. `boot k` has the
  thread `k` run the plugins and then `bus_init`; the workers that exist run along with it. A crash of
  `k` in a plugin ends the process, so it is no step.
* `initStep_moves`: what a step of `bus_init` can do.
* `Orderly`: the condition under which start-up keeps every task: no early publish finds the ring
  full, and when `bus_init` sets up the queue there is nothing left in it to lose.
-/

namespace CoreCDTL
namespace EventBus

/-! ## `bus_init` -/

/-- Where `bus_init` is. -/
inductive InitPc where
  /-- Not called yet: `plugin_init` runs. -/
  | plugins
  /-- At the allocation of `thread_ptrs`. -/
  | pool
  /-- At the head of the loop that creates the workers. -/
  | spawn (i : Nat)
  | setHead
  | setTail
  | setCount
  | initMutex
  | initNotEmpty
  | initNotFull
  | returned (ret : Int)
  deriving DecidableEq, Repr

def InitPc.isReturned : InitPc → Bool
  | returned _ => true
  | _ => false

/-- The bus while `core_init` starts it; the workers below `created` exist. -/
structure Boot (κ : Type) where
  bus : State κ
  created : Nat
  pc : InitPc

/-- Whose step a label is. -/
def Label.thread {κ : Type} : Label κ → Thread κ
  | .call t _ | .go t _ | .crash t | .wakeCaller t => .caller t
  | .work i _ | .ret i | .wakeWorker i => .caller (.worker i)
  | .shutdown | .main => .main

def Label.isCrash {κ : Type} : Label κ → Bool
  | .crash _ => true
  | _ => false

section Machine

variable {κ : Type} [DecidableEq κ]

/-- A step of `bus_init`; `ok` says whether the allocation and `pthread_create` there succeed. -/
def initStep (k : κ) (ok : Bool) (s : Boot κ) : Option (Boot κ) :=
  match s.pc with
  | .plugins => if s.bus.call (.client k) = none then some { s with pc := .pool } else none
  | .pool => some { s with pc := if ok then .spawn 0 else .returned (-1) }
  | .spawn i =>
    if h : i < MAX_INIT_EVENT_BUS_THREADS then
      if ok then
        some { bus := s.bus.gotoWorker ⟨i, h⟩ .lock, created := i + 1, pc := .spawn (i + 1) }
      else some { s with pc := .returned (-1) }
    else some { s with pc := .setHead }
  | .setHead =>
    some { s with bus := { s.bus with queue := { s.bus.queue with head := 0 } }, pc := .setTail }
  | .setTail =>
    some { s with bus := { s.bus with queue := { s.bus.queue with tail := 0 } }, pc := .setCount }
  | .setCount =>
    some { s with bus := { s.bus with queue := { s.bus.queue with count := 0 } }, pc := .initMutex }
  | .initMutex => some { s with bus := { s.bus with queueMutex := .free }, pc := .initNotEmpty }
  | .initNotEmpty => some { s with bus := { s.bus with notEmpty := [] }, pc := .initNotFull }
  | .initNotFull => some { s with bus := { s.bus with notFull := [] }, pc := .returned 0 }
  | .returned _ => none

/-- What a step of `bus_init` can do at a position. -/
inductive InitMove (k : κ) (s : Boot κ) (ok : Bool) : InitPc → Boot κ → Prop where
  | enter (outside : s.bus.call (.client k) = none) : InitMove k s ok .plugins { s with pc := .pool }
  | pool : InitMove k s ok .pool { s with pc := if ok then .spawn 0 else .returned (-1) }
  | spawn {i : Worker} (created : ok = true) :
    InitMove k s ok (.spawn i)
      { bus := s.bus.gotoWorker i .lock, created := i + 1, pc := .spawn (i + 1) }
  | fail {i : Nat} (failed : ok ≠ true) : InitMove k s ok (.spawn i) { s with pc := .returned (-1) }
  | spawned {n : Nat} (all : MAX_INIT_EVENT_BUS_THREADS ≤ n) :
    InitMove k s ok (.spawn n) { s with pc := .setHead }
  | setHead :
    InitMove k s ok .setHead
      { s with bus := { s.bus with queue := { s.bus.queue with head := 0 } }, pc := .setTail }
  | setTail :
    InitMove k s ok .setTail
      { s with bus := { s.bus with queue := { s.bus.queue with tail := 0 } }, pc := .setCount }
  | setCount :
    InitMove k s ok .setCount
      { s with bus := { s.bus with queue := { s.bus.queue with count := 0 } }, pc := .initMutex }
  | initMutex :
    InitMove k s ok .initMutex
      { s with bus := { s.bus with queueMutex := .free }, pc := .initNotEmpty }
  | initNotEmpty :
    InitMove k s ok .initNotEmpty { s with bus := { s.bus with notEmpty := [] }, pc := .initNotFull }
  | initNotFull :
    InitMove k s ok .initNotFull { s with bus := { s.bus with notFull := [] }, pc := .returned 0 }

omit [DecidableEq κ] in
theorem initStep_moves {k : κ} {s s' : Boot κ} {ok : Bool} (h : initStep k ok s = some s') :
    InitMove k s ok s.pc s' := by
  unfold initStep at h
  cases hpc : s.pc with
  | plugins =>
    simp only [hpc] at h
    obtain ⟨outside, he⟩ := Option.ite_none_right_eq_some.mp h
    cases he
    exact .enter outside
  | pool => rw [hpc] at h; cases h; exact .pool
  | spawn i =>
    simp only [hpc] at h
    split at h
    · rename_i hi
      split at h
      · rename_i created
        cases h
        exact @InitMove.spawn κ k s ok ⟨i, hi⟩ created
      · rename_i failed
        cases h
        exact .fail failed
    · rename_i hi
      cases h
      exact .spawned (Nat.le_of_not_lt hi)
  | setHead => rw [hpc] at h; cases h; exact .setHead
  | setTail => rw [hpc] at h; cases h; exact .setTail
  | setCount => rw [hpc] at h; cases h; exact .setCount
  | initMutex => rw [hpc] at h; cases h; exact .initMutex
  | initNotEmpty => rw [hpc] at h; cases h; exact .initNotEmpty
  | initNotFull => rw [hpc] at h; cases h; exact .initNotFull
  | returned r => rw [hpc] at h; cases h

/-- Whether the thread of a label runs: a worker from its creation on, the thread `k` in the plugins
and after `bus_init`. -/
def Boot.runs (k : κ) (s : Boot κ) (l : Label κ) : Bool :=
  match l.thread with
  | .caller (.worker i) => i.val < s.created
  | .caller (.client j) => j ≠ k || s.pc.isReturned || (s.pc = .plugins && !l.isCrash)
  | .main => s.pc.isReturned

inductive BootLabel (κ : Type) where
  | bus (l : Label κ)
  | init (ok : Bool)

/-- The bus with the start-up by the thread `k`. -/
def boot (k : κ) : Machine (Boot κ) (BootLabel κ) where
  step
    | .bus l, s =>
      if s.runs k l then ((bus κ).step l s.bus).map fun b => { s with bus := b } else none
    | .init ok, s => initStep k ok s

/-- What a step at start-up is: one of the bus, by a thread that runs, or one of `bus_init`. -/
theorem boot_step {k : κ} {s s' : Boot κ} {l : BootLabel κ} (h : (boot k).step l s = some s') :
    (∃ m b, l = .bus m ∧ s.runs k m = true ∧ (bus κ).step m s.bus = some b ∧
      s' = { s with bus := b }) ∨ ∃ ok, l = .init ok ∧ initStep k ok s = some s' := by
  cases l with
  | bus m =>
    simp only [boot] at h
    split at h
    · rename_i hr
      obtain ⟨b, hb, rfl⟩ := Option.map_eq_some_iff.mp h
      exact .inl ⟨m, b, rfl, hr, hb, rfl⟩
    · cases h
  | init ok => exact .inr ⟨ok, rfl, h⟩

end Machine

/-! ## The calls of the plugins -/

/-- The thread of `core_init`. -/
abbrev core : Caller Unit := .client ()

/-- Whether a call goes on to its end: it reads only memory that is there, and finds space. -/
def CallPc.fits (s : State Unit) : CallPc → Bool
  | publishLock a | publishSearch a =>
    match search a.pluginId a.event s.subs with
    | .notFound => (strArg a.event).isSome
    | .fault => false
    | .found _ => (readable a.data a.len).isSome && s.queue.count ≠ MAX_TASKS
  | publishCopy a _ => (readable a.data a.len).isSome && s.queue.count ≠ MAX_TASKS
  | enqueueLock _ _ | enqueueTest _ _ => s.queue.count ≠ MAX_TASKS
  | enqueueWait _ _ => false
  | publishMiss a | publishMsg a => (strArg a.event).isSome
  | subscribeAlloc a _ =>
    match a.event with
    | .obj _ => true
    | _ => false
  | _ => true

/-- The number of steps to the end of the call, at most. -/
def CallPc.left : CallPc → Nat
  | publishLock _ => 7
  | publishSearch _ => 6
  | publishCopy _ _ => 5
  | enqueueLock _ _ => 4
  | enqueueTest _ _ => 3
  | enqueueUnlock | publishMiss _ => 2
  | publishUnlock _ | publishMsg _ => 1
  | enqueueWait _ _ => 0
  | subscribeAlloc _ _ => 5
  | subscribeLock _ => 4
  | subscribeInsert _ => 3
  | subscribeUnlock _ => 2
  | subscribeMsg _ => 1

/-- While the plugins run, nobody else uses the bus. -/
structure Alone (s : State Unit) : Prop where
  subMutex : s.subMutex =
    if (s.call core).any CallPc.holdsSub then .held (.caller core) else .free
  queueMutex : s.queueMutex =
    if (s.call core).any CallPc.holdsQueue then .held (.caller core) else .free
  notEmpty : s.notEmpty = []
  notFull : s.notFull = []
  up : s.shutDown = false
  fits : ∀ c ∈ s.call core, c.fits s = true

theorem alone_init : Alone (init Unit []) :=
  ⟨rfl, rfl, rfl, rfl, rfl, fun _ h => nomatch h⟩

/-- The call has returned, or has less than `n` steps left. -/
def Nearer (n : Nat) (s : State Unit) : Prop := ∀ c ∈ s.call core, c.left < n

/-- The thread of `core_init` moves to `next` (`none`: out of the bus). -/
theorem Alone.move {s s' : State Unit} (ha : Alone s) {next : Option CallPc} {n : Nat}
    (call : s'.call = Function.update s.call core next)
    (subMutex : s'.subMutex = if next.any CallPc.holdsSub then .held (.caller core) else .free)
    (queueMutex : s'.queueMutex =
      if next.any CallPc.holdsQueue then .held (.caller core) else .free)
    (notEmpty : s'.notEmpty = s.notEmpty) (notFull : s'.notFull = s.notFull)
    (up : s'.shutDown = s.shutDown) (fits : ∀ c ∈ next, c.fits s' = true ∧ c.left < n) :
    Alone s' ∧ Nearer n s' := by
  have hc : s'.call core = next := by rw [call, Function.update_self]
  refine ⟨⟨hc ▸ subMutex, hc ▸ queueMutex, notEmpty.trans ha.notEmpty, notFull.trans ha.notFull,
    up.trans ha.up, ?_⟩, ?_⟩
  · rw [hc]
    exact fun c h => (fits c h).1
  · intro c h
    rw [hc] at h
    exact (fits c h).2

/-- **One step of a call.** While nobody else uses the bus, a call that fits goes on. -/
theorem go_nearer {s : State Unit} (ha : Alone s) {c : CallPc} (hc : s.call core = some c)
    (o : Outcome) : ∃ s', callStep core o c s = some s' ∧ Alone s' ∧ Nearer c.left s' := by
  have one : ∀ {n : CallPc} {P : CallPc → Prop}, P n → ∀ m ∈ some n, P m :=
    fun h m hm => Option.mem_some_iff.mp hm ▸ h
  have none_ : ∀ {P : CallPc → Prop}, ∀ m ∈ (none : Option CallPc), P m := nofun
  have hs := ha.subMutex
  have hq := ha.queueMutex
  have hf := ha.fits c hc
  rw [hc] at hs hq
  have lockSub : c.holdsSub = false →
      s.subMutex.lock (.caller core) = some (.held (.caller core)) := by
    intro h
    rw [hs, Option.any_some, h]
    rfl
  have unlockSub : s.subMutex.unlock = .free := by
    rw [hs]
    split <;> rfl
  cases c with
  | publishLock a =>
    exact ⟨_, congrArg (Option.map _) (lockSub rfl),
      ha.move rfl rfl hq rfl rfl rfl (one ⟨hf, by simp [CallPc.left]⟩)⟩
  | publishSearch a =>
    simp only [callStep, CallPc.fits] at hf ⊢
    cases hsearch : search a.pluginId a.event s.subs with
    | notFound =>
      rw [hsearch] at hf
      exact ⟨_, rfl, ha.move rfl hs hq rfl rfl rfl (one ⟨hf, by simp [CallPc.left]⟩)⟩
    | fault => simp only [hsearch, Bool.false_eq_true] at hf
    | found it =>
      rw [hsearch] at hf
      exact ⟨_, rfl, ha.move rfl hs hq rfl rfl rfl (one ⟨hf, by simp [CallPc.left]⟩)⟩
  | publishCopy a it =>
    simp only [callStep]
    split
    · exact ⟨_, rfl, ha.move rfl hs hq rfl rfl rfl (one ⟨rfl, by simp [CallPc.left]⟩)⟩
    · obtain ⟨bytes, hb⟩ := Option.isSome_iff_exists.mp (Bool.and_eq_true_iff.mp hf).1
      rw [hb]
      exact ⟨_, rfl, ha.move rfl hs hq rfl rfl rfl (one ⟨(Bool.and_eq_true_iff.mp hf).2, by simp [CallPc.left]⟩)⟩
  | publishMiss a =>
    exact ⟨_, rfl, ha.move rfl unlockSub hq rfl rfl rfl (one ⟨hf, by simp [CallPc.left]⟩)⟩
  | publishMsg a =>
    simp only [callStep]
    split
    · obtain ⟨e, he⟩ := Option.isSome_iff_exists.mp hf
      rw [he]
      exact ⟨_, rfl, ha.move rfl hs hq rfl rfl rfl none_⟩
    · exact ⟨_, rfl, ha.move rfl hs hq rfl rfl rfl none_⟩
  | publishUnlock r => exact ⟨_, rfl, ha.move rfl unlockSub hq rfl rfl rfl none_⟩
  | enqueueLock a task =>
    have hl : s.queueMutex.lock (.caller core) = some (.held (.caller core)) := by
      rw [hq]
      rfl
    exact ⟨_, congrArg (Option.map _) hl,
      ha.move rfl hs rfl rfl rfl rfl (one ⟨hf, by simp [CallPc.left]⟩)⟩
  | enqueueTest a task =>
    rw [callStep, if_neg (fun h => of_decide_eq_true hf h.1), if_neg (by simp [ha.up]), ha.notEmpty]
    exact ⟨_, rfl, ha.move rfl hs hq ha.notEmpty.symm rfl rfl
      (one ⟨rfl, by simp [CallPc.left]⟩)⟩
  | enqueueWait => cases hf
  | enqueueUnlock =>
    have hu : s.queueMutex.unlock = .free := by
      rw [hq]
      rfl
    exact ⟨_, rfl, ha.move rfl hs hu rfl rfl rfl (one ⟨rfl, by simp [CallPc.left]⟩)⟩
  | subscribeAlloc a cb =>
    obtain ⟨e, he⟩ : ∃ e, a.event = .obj e := by
      cases he : a.event with
      | obj e => exact ⟨e, rfl⟩
      | null | bad => simp [CallPc.fits, he] at hf
    simp only [callStep, he]
    split
    · exact ⟨_, rfl, ha.move rfl hs hq rfl rfl rfl none_⟩
    · split
      · exact ⟨_, rfl, ha.move rfl hs hq rfl rfl rfl none_⟩
      · exact ⟨_, rfl, ha.move rfl hs hq rfl rfl rfl (one ⟨rfl, by simp [CallPc.left]⟩)⟩
  | subscribeLock n =>
    exact ⟨_, congrArg (Option.map _) (lockSub rfl),
      ha.move rfl rfl hq rfl rfl rfl (one ⟨rfl, by simp [CallPc.left]⟩)⟩
  | subscribeInsert n => exact ⟨_, rfl, ha.move rfl hs hq rfl rfl rfl (one ⟨rfl, by simp [CallPc.left]⟩)⟩
  | subscribeUnlock n =>
    exact ⟨_, rfl, ha.move rfl unlockSub hq rfl rfl rfl (one ⟨rfl, by simp [CallPc.left]⟩)⟩
  | subscribeMsg n => exact ⟨_, rfl, ha.move rfl hs hq rfl rfl rfl none_⟩

/-- The bus call of `core_init` returns within `n` steps, whatever these meet. -/
def ReturnsIn : Nat → Boot Unit → Prop
  | 0, s => s.bus.call core = none
  | n + 1, s => s.bus.call core = none ∨
      ∀ o, ∃ s', (boot ()).step (.bus (.go core o)) s = some s' ∧ ReturnsIn n s'

/-- **A call returns.** While the plugins run, a call that fits returns. -/
theorem returnsIn_of_alone {n : Nat} {s : Boot Unit} (hp : s.pc = .plugins) (ha : Alone s.bus)
    (hn : Nearer n s.bus) : ReturnsIn n s := by
  induction n generalizing s with
  | zero =>
    cases hc : s.bus.call core with
    | none => exact hc
    | some c => exact absurd (hn c hc) (Nat.not_lt_zero _)
  | succ n ih =>
    cases hc : s.bus.call core with
    | none => exact .inl hc
    | some c =>
      refine .inr fun o => ?_
      obtain ⟨b, hb, ha', hn'⟩ := go_nearer ha hc o
      have hstep : (boot ()).step (.bus (.go core o)) s = some { s with bus := b } := by
        have hgo : (bus Unit).step (.go core o) s.bus = some b := by
          rw [← hb]
          exact congrArg (Option.bind · fun c => callStep core o c s.bus) hc
        have hr : s.runs () (.go core o) = true := by
          simp [Boot.runs, Label.thread, Label.isCrash, hp]
        simp only [boot, hr, hgo]
        rfl
      refine ⟨_, hstep, ih hp ha' fun c' hc' => ?_⟩
      have := hn c hc
      have := hn' c' hc'
      omega

theorem boot_go {s s' : Boot Unit} {o : Outcome}
    (h : (boot ()).step (.bus (.go core o)) s = some s') :
    ∃ c b, s.bus.call core = some c ∧ callStep core o c s.bus = some b ∧
      s' = { s with bus := b } := by
  rcases boot_step h with ⟨m, b, hm, -, hb, rfl⟩ | ⟨ok, hm, -⟩
  · cases hm
    obtain ⟨c, hc, hgo⟩ := Option.bind_eq_some_iff.mp hb
    exact ⟨c, b, hc, hgo, rfl⟩
  · cases hm

/-- A publish that finds the ring full does not return while the plugins run. -/
theorem not_returnsIn_full {s : Boot Unit} {a : PublishArgs} {k : Task}
    (hc : s.bus.call core = some (.enqueueTest a k)) (full : s.bus.queue.count = MAX_TASKS)
    (up : s.bus.shutDown = false) (n : Nat) : ¬ ReturnsIn n s := by
  have wait : ∀ {s' : Boot Unit}, s'.bus.call core = some (.enqueueWait a k) →
      ∀ n, ¬ ReturnsIn n s' := by
    intro s' hc' n h
    cases n with
    | zero => cases hc'.symm.trans h
    | succ n =>
      rcases h with h | h
      · cases hc'.symm.trans h
      · obtain ⟨_, hs, -⟩ := h .ok
        obtain ⟨c, b, hc, hb, -⟩ := boot_go hs
        cases hc'.symm.trans hc
        cases hb
  cases n with
  | zero => exact fun h => nomatch hc.symm.trans h
  | succ n =>
    rintro (h | h)
    · cases hc.symm.trans h
    · obtain ⟨_, hs, hn⟩ := h .ok
      obtain ⟨c, b, hc', hb, rfl⟩ := boot_go hs
      cases hc.symm.trans hc'
      rw [callStep, if_pos ⟨full, up⟩] at hb
      cases hb
      exact wait (show Function.update s.bus.call core _ core = _ from Function.update_self ..) n hn

/-! ## The condition -/

/-- Whether the next step of a thread puts a task into the ring. -/
def State.writes (s : State Unit) (t : Caller Unit) : Bool :=
  match s.call t with
  | some (.enqueueTest _ _) => s.queue.count ≠ MAX_TASKS && !s.shutDown
  | _ => false

/-- What a step must meet for start-up to keep every task.

* A plugin's call fits: a publish that finds a subscription finds space as well.
* A task is written to the slot behind the last one.
* `bus_init` sets the head while it is 0 or the ring is empty, and the count while the ring is empty.
* It initializes the mutex while no worker holds it. -/
def Orderly (s : Boot Unit) : BootLabel Unit → Prop
  | .bus (.call _ c) => s.pc = .plugins → c.first.all (CallPc.fits s.bus) = true
  | .bus (.go t _) => s.bus.writes t = true → Behind s.bus.queue
  | .bus _ => True
  | .init _ =>
    (s.pc = .setHead → s.bus.queue.head = 0 ∨ s.bus.queue.count = 0) ∧
      (s.pc = .setCount → s.bus.queue.count = 0) ∧
      (s.pc = .initMutex → s.bus.queueMutex = .free)

instance (r : Ring Task) : Decidable (Behind r) := inferInstanceAs (Decidable (_ = _))

instance (s : Boot Unit) : (l : BootLabel Unit) → Decidable (Orderly s l)
  | .bus (.call _ _) => inferInstanceAs (Decidable (_ → _))
  | .bus (.go _ _) => inferInstanceAs (Decidable (_ → _))
  | .bus (.work _ _) | .bus (.ret _) | .bus (.crash _) | .bus (.wakeCaller _)
  | .bus (.wakeWorker _) | .bus .shutdown | .bus .main => inferInstanceAs (Decidable True)
  | .init _ => inferInstanceAs (Decidable (_ ∧ _))

/-- The start of `core_init`. -/
def start : Boot Unit := ⟨init Unit [], 0, .plugins⟩

/-- The invariant of an orderly start-up. -/
structure Kept (s : Boot Unit) : Prop where
  plugins : s.pc = .plugins → s.created = 0 ∧ Alone s.bus
  queued : Queued s.bus

theorem kept_start : Kept start where
  plugins := fun _ => ⟨rfl, alone_init⟩
  queued := ⟨by decide, by decide, rfl⟩

/-- A step of `bus_init` under the condition keeps the tasks. -/
theorem initStep_queued {s s' : Boot Unit} {ok : Bool} (hq : Queued s.bus)
    (ho : Orderly s (.init ok)) (h : initStep () ok s = some s') : Queued s'.bus := by
  have ring : ∀ r : Ring Task, r.head < MAX_TASKS → r.count ≤ MAX_TASKS →
      r.contents MAX_TASKS = s.bus.queue.contents MAX_TASKS →
      Queued { s.bus with queue := r } := fun r h₁ h₂ h₃ =>
    ⟨h₁, h₂, by rw [show _ = r.contents MAX_TASKS from rfl, h₃]; exact hq.fifo⟩
  have move := initStep_moves h
  generalize hpc : s.pc = p at move
  cases move with
  | enter | pool | fail | spawned => exact hq
  | setHead =>
    refine ring _ (show 0 < MAX_TASKS by decide) hq.room ?_
    rcases ho.1 hpc with h0 | h0
    · rw [← h0]
    · rw [Ring.contents_nil h0]
      exact Ring.contents_nil h0
  | setTail => exact ring _ hq.head hq.room rfl
  | setCount =>
    exact ring _ hq.head (Nat.zero_le _)
      ((Ring.contents_nil rfl).trans (Ring.contents_nil (ho.2.1 hpc)).symm)
  | spawn | initMutex | initNotEmpty | initNotFull => exact ⟨hq.head, hq.room, hq.fifo⟩

theorem initStep_pc {s s' : Boot Unit} {ok : Bool} (h : initStep () ok s = some s') :
    s'.pc ≠ .plugins := by
  have move := initStep_moves h
  generalize s.pc = p at move
  cases move with
  | pool => cases ok <;> exact nofun
  | _ => exact nofun

theorem CallPc.fits_congr {s s' : State Unit} (subs : s'.subs = s.subs)
    (queue : s'.queue = s.queue) (c : CallPc) : c.fits s' = c.fits s := by
  unfold fits
  rw [subs, queue]

theorem beginCall_subs (t : Caller Unit) (c : BusCall) (s : State Unit) :
    (beginCall t c s).subs = s.subs := by
  cases c with
  | publish a =>
    simp only [beginCall]
    split
    · rfl
    · split
      · rfl
      · split <;> rfl
  | subscribe a =>
    simp only [beginCall]
    split
    · rfl
    · split <;> rfl

/-- A call of a plugin begins. -/
theorem Alone.begin {s : State Unit} (ha : Alone s) (hc : s.call core = none) {c : BusCall}
    (hf : c.first.all (CallPc.fits s) = true) : Alone (beginCall core c s) := by
  obtain ⟨hq, hm, -⟩ := beginCall_quiet core c s
  have hsub := ha.subMutex
  have hqueue := ha.queueMutex
  rw [hc] at hsub hqueue
  have holdsQueue : c.first.any CallPc.holdsQueue = false := by
    cases hn : c.first with
    | none => rfl
    | some n => exact CallPc.holdsQueue_of_enqueues (hq.outside n hn)
  refine (ha.move (n := 8) hq.call ?_ ?_ hq.notEmpty hq.notFull hq.shutDown fun n hn => ⟨?_, ?_⟩).1
  · rw [hm, hsub, BusCall.first_holdsSub]
    rfl
  · rw [hq.queueMutex, hqueue, holdsQueue]
    rfl
  · rw [CallPc.fits_congr (beginCall_subs core c s) hq.queue]
    rw [Option.mem_def.mp hn] at hf
    exact hf
  · cases n <;> simp [CallPc.left]

/-- While the plugins run, only `core_init` runs. -/
theorem runs_plugins {s : Boot Unit} {l : Label Unit} (hp : s.pc = .plugins) (hc : s.created = 0)
    (h : s.runs () l = true) :
    (∃ c, l = .call core c) ∨ (∃ o, l = .go core o) ∨ l = .wakeCaller core := by
  have hthread : l.thread = .caller core ∧ l.isCrash = false := by
    unfold Boot.runs at h
    split at h
    · rw [hc] at h
      simp at h
    · rename_i j ht
      simp [hp, InitPc.isReturned] at h
      exact ⟨ht, h⟩
    · simp [hp, InitPc.isReturned] at h
  cases l with
  | call t c => cases hthread.1; exact .inl ⟨c, rfl⟩
  | go t o => cases hthread.1; exact .inr (.inl ⟨o, rfl⟩)
  | wakeCaller t => cases hthread.1; exact .inr (.inr rfl)
  | crash t => cases hthread.2
  | work | ret | wakeWorker | shutdown | main => cases hthread.1

/-- **One step of an orderly start-up.** -/
theorem kept_keeps : (boot ()).Keeps Orderly Kept := by
  intro s l s' hk ho h
  rcases boot_step h with ⟨m, b, rfl, hr, hb, rfl⟩ | ⟨ok, rfl, hi⟩
  · refine ⟨fun hp => ?_, step_queued hk.queued (fun t o a k hm => ?_) hb⟩
    · obtain ⟨hc, ha⟩ := hk.plugins hp
      refine ⟨hc, ?_⟩
      rcases runs_plugins hp hc hr with ⟨c, rfl⟩ | ⟨o, rfl⟩ | rfl
      · simp only [bus, step] at hb
        split at hb
        · rename_i hout
          cases hb
          exact ha.begin (isOutside_call hout.1) (ho hp)
        · cases hb
      · obtain ⟨c, hc, hgo⟩ := Option.bind_eq_some_iff.mp hb
        obtain ⟨b', hb', ha', -⟩ := go_nearer ha hc o
        cases hgo.symm.trans hb'
        exact ha'
      · simp [bus, step, ha.notFull] at hb
    · subst hm
      exact fun hc room up => ho (by simp [State.writes, hc, room, up])
  · exact ⟨fun hp => absurd hp (initStep_pc hi), initStep_queued hk.queued ho hi⟩

/-- **Start-up loses no task**, in a run whose steps meet the condition: while the plugins run every
call returns, and in every state the tasks that were enqueued are the tasks taken, each by one worker,
and the tasks in the queue. -/
theorem startup_loses_nothing {ls : List (BootLabel Unit)} {s : Boot Unit}
    (hr : (boot ()).run ls start = some s) (hm : (boot ()).Meets Orderly ls start) :
    (s.pc = .plugins → ReturnsIn 8 s) ∧
      s.bus.entered.map (·.2) = s.bus.taken.map (·.2) ++ s.bus.queue.contents MAX_TASKS := by
  have hk := kept_keeps.run kept_start hm hr
  refine ⟨fun hp => ?_, hk.queued.fifo⟩
  refine returnsIn_of_alone hp (hk.plugins hp).2 fun c _ => ?_
  cases c <;> simp [CallPc.left]

/-- A call of `bus_subscribe` for the event `e` of plugin 1, and all its steps. -/
def subscribes : List (BootLabel Unit) :=
  .bus (.call core (.subscribe ⟨1, .obj ['e'], some 1, 0⟩)) ::
    List.replicate 5 (.bus (.go core .ok))

/-- A call of `bus_publish` for this event, and all its steps. -/
def publishes : List (BootLabel Unit) :=
  .bus (.call core (.publish ⟨1, .obj ['e'], .obj [7], 1⟩)) ::
    List.replicate 7 (.bus (.go core .ok))

/-- The first worker takes the task before `bus_init` sets up the queue. -/
def takenEarly : List (BootLabel Unit) :=
  subscribes ++ publishes ++ List.replicate 3 (.init true) ++
    List.replicate 3 (.bus (.work 0 .ok)) ++ List.replicate 11 (.init true)

theorem startup_loses_nothing_takenEarly :
    ∃ s, (boot ()).run takenEarly start = some s ∧ s.pc = .returned 0 ∧
      s.bus.taken.length = 1 ∧
      s.bus.entered.map (·.2) = s.bus.taken.map (·.2) ++ s.bus.queue.contents MAX_TASKS := by
  have hrun : ((boot ()).run takenEarly start).any fun s =>
      decide (s.pc = .returned 0) && decide (s.bus.taken.length = 1) := by
    decide +kernel
  obtain ⟨s, hs, hp⟩ := Option.any_eq_true _ _ |>.mp hrun
  obtain ⟨hpc, hlen⟩ := Bool.and_eq_true_iff.mp hp
  exact ⟨s, hs, of_decide_eq_true hpc, of_decide_eq_true hlen,
    (startup_loses_nothing hs (by decide +kernel)).2⟩

/-- A plugin publishes in its initialize function, and `bus_init` returns before a worker runs. -/
def publishedEarly : List (BootLabel Unit) :=
  subscribes ++ publishes ++ List.replicate 14 (.init true)

/-- **A lost event.** `bus_init` sets the count to 0 before a worker takes the task. -/
theorem early_task_lost :
    ∃ s, (boot ()).run publishedEarly start = some s ∧ s.pc = .returned 0 ∧
      s.bus.results = [(core, 0), (core, 0)] ∧ s.bus.entered.length = 1 ∧ s.bus.taken = [] ∧
      s.bus.queue.contents MAX_TASKS = [] := by
  have hrun : ((boot ()).run publishedEarly start).any fun s =>
      decide (s.pc = .returned 0 ∧ s.bus.results = [(core, 0), (core, 0)] ∧
        s.bus.entered.length = 1 ∧ s.bus.taken = [] ∧ s.bus.queue.contents MAX_TASKS = []) := by
    decide +kernel
  obtain ⟨s, hs, hp⟩ := Option.any_eq_true _ _ |>.mp hrun
  exact ⟨s, hs, of_decide_eq_true hp⟩

end EventBus
end CoreCDTL
