import CoreCDTL.Lib.Machine
import Mathlib.Algebra.Group.Nat.Defs
import Mathlib.Data.Int.Basic

/-!
# The scheduler (`core/scheduler.c`)

The scheduler thread and any number of threads that call `scheduler_after_ms`,
`scheduler_every_ms`, `scheduler_cancel` and `scheduler_shutdown`, the running callback among them.
A step of the machine is a critical section of `g_mtx`, or the code between two of them; its label
says which step and holds what the step reads from outside (arguments, a clock reading, whether
`malloc` succeeds).

* **The list.** `insertTimer` keeps `g_timers` in the order of `Timer.Before`, `removeTimer` is the
  search of `scheduler_cancel`.
* **A creation** draws an id without the lock (`draw`), links the timer under the lock (`insert`)
  and reads `t->id` again afterwards (`ret`). A freed node reads as it was.
* **The thread** (`Pc`) holds `g_mtx` at `top` only. A popped timer is in its hand (`Pc.hand`)
  until it is linked again or freed.
* `ref`, `seq` and `armed` of a timer, and `born`, `inserted`, `freed`, `fired`, `returned` and
  `cancelled` of the state, are history: no step of the code reads them.
* `Turn` lists what a step can do, with the tests it has passed. `step_turn`: every step is one of
  these.
-/

namespace CoreCDTL
namespace Scheduler

/-- The fields of `scheduler_timer_t` that are not written after creation. `ref` stands for the
node itself: the number of timers created before it. -/
structure TimerInfo where
  ref : Nat
  id : Int
  intervalMs : Nat
  cb : Nat
  user : Nat
  pluginId : Nat
  repeating : Bool
  deriving DecidableEq, Repr

/-- `scheduler_timer_t`. `seq` numbers the insertions, `armed` is the clock reading that `dueMs`
was computed from. -/
structure Timer extends TimerInfo where
  dueMs : Nat
  armed : Nat
  seq : Nat
  deriving DecidableEq, Repr

/-- Where the scheduler thread is: not created, before its first lock, at the loop's test with
`g_mtx` held, in a wait on `g_cv`, with a popped timer before, in and after its callback, and
returned. -/
inductive Pc where
  | absent
  | start
  | top
  | waiting
  | popped (t : Timer)
  | calling (t : Timer)
  | after (t : Timer)
  | exited
  deriving DecidableEq, Repr

/-- The thread's local variable `t` while it is the only way to the timer. -/
def Pc.hand : Pc → List Timer
  | .popped t => [t]
  | .calling t => [t]
  | .after t => [t]
  | _ => []

/-- What goes to the gateway: `[subs_after]`, `[subs_every]` and `[cancel]` with their numbers. -/
inductive Message where
  | subsAfter (pluginId : Nat) (id : Int) (ms : Nat)
  | subsEvery (pluginId : Nat) (id : Int) (ms : Nat)
  | cancel (pluginId : Nat) (id : Int)
  deriving DecidableEq, Repr

/-- A call of `scheduler_after_ms` or `scheduler_every_ms` that has its timer; `ms` is its
argument. -/
structure Creation where
  timer : Timer
  ms : Nat
  deriving DecidableEq, Repr

/-- Who calls `scheduler_shutdown`. -/
inductive Caller where
  | callback | other
  deriving DecidableEq, Repr

/-- The globals of `scheduler.c`, the positions of the threads, and the history. -/
structure State where
  timers : List Timer
  nextId : Int
  running : Bool
  pc : Pc
  creating : List Creation
  returning : List Creation
  shutdowns : List Caller
  connected : Bool
  messages : List Message
  errors : List (Nat × Int)
  born : List TimerInfo
  inserted : Nat
  freed : List Nat
  fired : List Nat
  returned : List TimerInfo
  cancelled : List Nat
  deriving DecidableEq, Repr

/-- Before `scheduler_init`. -/
def init : State where
  timers := []
  nextId := 1
  running := false
  pc := .absent
  creating := []
  returning := []
  shutdowns := []
  connected := false
  messages := []
  errors := []
  born := []
  inserted := 0
  freed := []
  fired := []
  returned := []
  cancelled := []

/-! ## The list of timers -/

/-- The loop of `insert_timer` behind a node. -/
def insertAfter (t : Timer) : List Timer → List Timer
  | [] => [t]
  | n :: rest => if n.dueMs ≤ t.dueMs then n :: insertAfter t rest else t :: n :: rest

/-- `insert_timer`. -/
def insertTimer (t : Timer) : List Timer → List Timer
  | [] => [t]
  | h :: rest => if t.dueMs < h.dueMs then t :: h :: rest else h :: insertAfter t rest

/-- The search of `scheduler_cancel`: the first timer of the plugin with the id, and the list
without it. -/
def removeTimer (pluginId : Nat) (id : Int) : List Timer → Option (Timer × List Timer)
  | [] => none
  | t :: rest =>
    if t.id = id ∧ t.pluginId = pluginId then some (t, rest)
    else (removeTimer pluginId id rest).map fun p => (p.1, t :: p.2)

/-! ## The steps -/

/-- The arguments of `scheduler_after_ms` and `scheduler_every_ms`, the outcome of `malloc` and
the clock reading. `cb` is 0 for NULL. -/
structure CreateArgs where
  pluginId : Nat
  ms : Nat
  cb : Nat
  user : Nat
  malloc : Bool
  now : Nat
  deriving DecidableEq, Repr

/-- `uint64_t` addition. -/
def addMs (a b : Nat) : Nat := (a + b) % 2 ^ 64

/-- Both creations from `malloc` to the lock: the node. -/
def State.newTimer (s : State) (c : CreateArgs) (repeating : Bool) : Timer where
  ref := s.born.length
  id := s.nextId
  intervalMs := if repeating then c.ms else 0
  cb := c.cb
  user := c.user
  pluginId := c.pluginId
  repeating := repeating
  dueMs := addMs c.now c.ms
  armed := c.now
  seq := 0

/-- Both creations from `malloc` to the lock: the id is drawn. -/
def State.draw (s : State) (c : CreateArgs) (repeating : Bool) : State :=
  { s with
    nextId := (s.nextId + 1).bmod (2 ^ 32)
    born := s.born ++ [(s.newTimer c repeating).toTimerInfo]
    creating := s.creating ++ [⟨s.newTimer c repeating, c.ms⟩] }

/-- `scheduler_after_ms` up to the lock; without a node it returns -1. -/
def schedulerAfterMs (c : CreateArgs) (s : State) : State :=
  if c.cb = 0 then s
  else if c.malloc = false then s
  else s.draw c false

/-- `scheduler_every_ms` up to the lock. -/
def schedulerEveryMs (c : CreateArgs) (s : State) : State :=
  if c.cb = 0 ∨ c.ms = 0 then s
  else if c.malloc = false then s
  else s.draw c true

/-- `insert_timer` under the lock. -/
def State.link (s : State) (t : Timer) : State :=
  { s with
    timers := insertTimer { t with seq := s.inserted } s.timers
    inserted := s.inserted + 1 }

/-- `free(t)`. -/
def State.free (s : State) (t : Timer) : State := { s with freed := t.ref :: s.freed }

/-- The message of a creation. -/
def Creation.message (c : Creation) : Message :=
  if c.timer.repeating then .subsEvery c.timer.pluginId c.timer.id c.ms
  else .subsAfter c.timer.pluginId c.timer.id c.ms

/-- `gateway_msg_send` under `g_gateway_connected_flag`. -/
def State.send (s : State) (m : Message) : State :=
  if s.connected then { s with messages := s.messages ++ [m] } else s

/-- `scheduler_cancel`: the return value and the state after it. -/
def schedulerCancel (pluginId : Nat) (id : Int) (s : State) : Int × State :=
  if id ≤ 0 then (-1, s)
  else
    match removeTimer pluginId id s.timers with
    | some (t, rest) =>
      (0, { s.free t with timers := rest, cancelled := t.ref :: s.cancelled })
    | none => (-1, s.send (.cancel pluginId id))

/-- One round of the thread's loop from the test of `g_running`, up to where `g_mtx` is
released. -/
def loopRound (now : Nat) (s : State) : State :=
  if s.running = false then { s with pc := .exited }
  else
    match s.timers with
    | [] => { s with pc := .waiting }
    | t :: rest =>
      if t.dueMs ≤ now then { s with timers := rest, pc := .popped t }
      else { s with pc := .waiting }

/-- After the callback, under the lock: a repeating timer is armed and linked again, any other is
freed. -/
def relock (t : Timer) (now : Nat) (s : State) : State :=
  if t.repeating ∧ s.running then
    { s.link { t with dueMs := addMs now t.intervalMs, armed := now } with pc := .top }
  else { s.free t with pc := .top }

/-- The list is freed at the end of `scheduler_shutdown`. -/
def State.freeAll (s : State) : State :=
  { s with timers := [], freed := s.timers.map (·.ref) ++ s.freed }

/-- The steps. -/
inductive Label where
  | init (ok : Bool)
  | after (c : CreateArgs)
  | every (c : CreateArgs)
  | insert (i : Nat)
  | ret (i : Nat)
  | cancel (pluginId : Nat) (id : Int)
  | shutdown (c : Caller)
  | cleanup (c : Caller)
  | lock
  | loop (now : Nat)
  | call
  | cbReturn
  | cbCrash
  | relock (now : Nat)
  | connect (flag : Bool)
  deriving DecidableEq, Repr

/-- The scheduler thread is not in a critical section. -/
def State.LockFree (s : State) : Prop := s.pc ≠ .top

instance (s : State) : Decidable s.LockFree := inferInstanceAs (Decidable (_ ≠ _))

/-- The scheduler thread is in a callback. -/
def Pc.InCallback : Pc → Prop
  | .calling _ => True
  | _ => False

instance : (p : Pc) → Decidable p.InCallback
  | .calling _ => isTrue trivial
  | .absent | .start | .top | .waiting | .popped _ | .after _ | .exited => isFalse id

/-- `pthread_join` on the scheduler thread returns: it has exited, or the caller is that thread. -/
def Caller.Joined (c : Caller) (p : Pc) : Prop :=
  match c with
  | .callback => p.InCallback
  | .other => p = .exited

instance : (c : Caller) → (p : Pc) → Decidable (c.Joined p)
  | .callback, p => inferInstanceAs (Decidable p.InCallback)
  | .other, p => inferInstanceAs (Decidable (p = .exited))

/-- The step of a label, if it can be taken. -/
def step (a : Label) (s : State) : Option State :=
  match a with
  | .init ok =>
    if s.pc = .absent then some { s with running := ok, pc := if ok then .start else .absent }
    else none
  | .after c => some (schedulerAfterMs c s)
  | .every c => some (schedulerEveryMs c s)
  | .insert i =>
    match s.creating[i]? with
    | some c =>
      if s.LockFree then
        some { s.link c.timer with
          creating := s.creating.eraseIdx i, returning := s.returning ++ [c] }
      else none
    | none => none
  | .ret i =>
    match s.returning[i]? with
    | some c =>
      some { s.send c.message with
        returning := s.returning.eraseIdx i
        returned := c.timer.toTimerInfo :: s.returned }
    | none => none
  | .cancel pluginId id => if s.LockFree then some (schedulerCancel pluginId id s).2 else none
  | .shutdown c =>
    if s.LockFree ∧ s.pc ≠ .absent ∧ (c = .callback → s.pc.InCallback) then
      some { s with running := false, shutdowns := s.shutdowns ++ [c] }
    else none
  | .cleanup c =>
    if s.LockFree ∧ c ∈ s.shutdowns ∧ c.Joined s.pc then
      some { s.freeAll with shutdowns := s.shutdowns.erase c }
    else none
  | .lock => if s.pc = .start ∨ s.pc = .waiting then some { s with pc := .top } else none
  | .loop now => if s.pc = .top then some (loopRound now s) else none
  | .call =>
    match s.pc with
    | .popped t => some { s with pc := .calling t, fired := t.ref :: s.fired }
    | _ => none
  | .cbReturn =>
    match s.pc with
    | .calling t => if .callback ∈ s.shutdowns then none else some { s with pc := .after t }
    | _ => none
  | .cbCrash =>
    match s.pc with
    | .calling t =>
      if .callback ∈ s.shutdowns then none
      else some { s with pc := .after t, errors := s.errors ++ [(t.pluginId, t.id)] }
    | _ => none
  | .relock now =>
    match s.pc with
    | .after t => some (Scheduler.relock t now s)
    | _ => none
  | .connect flag => some { s with connected := flag }

/-- The scheduler as a machine. -/
def machine : Machine State Label := ⟨step⟩

/-- The states of all runs of the program. -/
def Reach : State → Prop := machine.Reach (· = init)

/-! ## What a step does -/

/-- What the step of a label can do, with the tests it has passed. -/
inductive Turn (s : State) : Label → State → Prop where
  | init {ok : Bool} (absent : s.pc = .absent) :
    Turn s (.init ok) { s with running := ok, pc := if ok then .start else .absent }
  /-- A call that returns -1 and leaves the state alone. -/
  | refused {a : Label} : Turn s a s
  | after {c : CreateArgs} (cb : c.cb ≠ 0) (node : c.malloc ≠ false) :
    Turn s (.after c) (s.draw c false)
  | every {c : CreateArgs} (cb : c.cb ≠ 0) (ms : c.ms ≠ 0) (node : c.malloc ≠ false) :
    Turn s (.every c) (s.draw c true)
  | insert {i : Nat} {c : Creation} (at_ : s.creating[i]? = some c) (free : s.LockFree) :
    Turn s (.insert i) { s.link c.timer with
      creating := s.creating.eraseIdx i, returning := s.returning ++ [c] }
  | ret {i : Nat} {c : Creation} {ms : List Message} (at_ : s.returning[i]? = some c)
    (sent : s.send c.message = { s with messages := ms }) :
    Turn s (.ret i) { s with
      messages := ms
      returning := s.returning.eraseIdx i
      returned := c.timer.toTimerInfo :: s.returned }
  | cancel {pid : Nat} {id : Int} {t : Timer} {rest : List Timer} (free : s.LockFree)
    (pos : 0 < id) (found : removeTimer pid id s.timers = some (t, rest)) :
    Turn s (.cancel pid id)
      { s.free t with timers := rest, cancelled := t.ref :: s.cancelled }
  | missed {pid : Nat} {id : Int} {ms : List Message} (free : s.LockFree) (pos : 0 < id)
    (found : removeTimer pid id s.timers = none)
    (sent : s.send (.cancel pid id) = { s with messages := ms }) :
    Turn s (.cancel pid id) { s with messages := ms }
  | shutdown {c : Caller} (free : s.LockFree) (started : s.pc ≠ .absent)
    (inside : c = .callback → s.pc.InCallback) :
    Turn s (.shutdown c) { s with running := false, shutdowns := s.shutdowns ++ [c] }
  | cleanup {c : Caller} (free : s.LockFree) (mem : c ∈ s.shutdowns) (joined : c.Joined s.pc) :
    Turn s (.cleanup c) { s.freeAll with shutdowns := s.shutdowns.erase c }
  | lock (at_ : s.pc = .start ∨ s.pc = .waiting) : Turn s .lock { s with pc := .top }
  | exit {now : Nat} (at_ : s.pc = .top) (down : s.running = false) :
    Turn s (.loop now) { s with pc := .exited }
  | sleep {now : Nat} (at_ : s.pc = .top) (up : s.running ≠ false)
    (early : ∀ t ∈ s.timers.head?, now < t.dueMs) : Turn s (.loop now) { s with pc := .waiting }
  | pop {now : Nat} {t : Timer} {rest : List Timer} (at_ : s.pc = .top) (up : s.running ≠ false)
    (first : s.timers = t :: rest) (due : t.dueMs ≤ now) :
    Turn s (.loop now) { s with timers := rest, pc := .popped t }
  | call {t : Timer} (at_ : s.pc = .popped t) :
    Turn s .call { s with pc := .calling t, fired := t.ref :: s.fired }
  | cbReturn {t : Timer} (at_ : s.pc = .calling t) (back : .callback ∉ s.shutdowns) :
    Turn s .cbReturn { s with pc := .after t }
  | cbCrash {t : Timer} (at_ : s.pc = .calling t) (back : .callback ∉ s.shutdowns) :
    Turn s .cbCrash { s with pc := .after t, errors := s.errors ++ [(t.pluginId, t.id)] }
  | rearm {now : Nat} {t : Timer} (at_ : s.pc = .after t) (again : t.repeating ∧ s.running) :
    Turn s (.relock now)
      { s.link { t with dueMs := addMs now t.intervalMs, armed := now } with pc := .top }
  | release {now : Nat} {t : Timer} (at_ : s.pc = .after t) (last : ¬ (t.repeating ∧ s.running)) :
    Turn s (.relock now) { s.free t with pc := .top }
  | connect {flag : Bool} : Turn s (.connect flag) { s with connected := flag }

/-- A message to the gateway changes nothing else. -/
theorem send_frame (s : State) (m : Message) : ∃ ms, s.send m = { s with messages := ms } := by
  unfold State.send
  split
  · exact ⟨_, rfl⟩
  · exact ⟨s.messages, rfl⟩

theorem after_turn (c : CreateArgs) (s : State) : Turn s (.after c) (schedulerAfterMs c s) := by
  unfold schedulerAfterMs
  split
  · exact .refused
  · rename_i cb
    split
    · exact .refused
    · rename_i node
      exact .after cb node

theorem every_turn (c : CreateArgs) (s : State) : Turn s (.every c) (schedulerEveryMs c s) := by
  unfold schedulerEveryMs
  split
  · exact .refused
  · rename_i test
    obtain ⟨cb, ms⟩ := not_or.mp test
    split
    · exact .refused
    · rename_i node
      exact .every cb ms node

theorem cancel_turn {s : State} (pid : Nat) (id : Int) (free : s.LockFree) :
    Turn s (.cancel pid id) (schedulerCancel pid id s).2 := by
  unfold schedulerCancel
  split
  · exact .refused
  · rename_i hid
    have pos : 0 < id := Int.not_le.mp hid
    split
    · rename_i t rest found
      exact .cancel free pos found
    · rename_i found
      obtain ⟨ms, sent⟩ := send_frame s (.cancel pid id)
      rw [sent]
      exact .missed free pos found sent

theorem loop_turn {s : State} (now : Nat) (at_ : s.pc = .top) :
    Turn s (.loop now) (loopRound now s) := by
  unfold loopRound
  split
  · rename_i down
    exact .exit at_ down
  · rename_i up
    split
    · rename_i first
      exact .sleep at_ up (by simp [first])
    · rename_i t rest first
      split
      · rename_i due
        exact .pop at_ up first due
      · rename_i early
        exact .sleep at_ up (by simpa [first] using early)

theorem relock_turn {s : State} {t : Timer} (now : Nat) (at_ : s.pc = .after t) :
    Turn s (.relock now) (Scheduler.relock t now s) := by
  unfold Scheduler.relock
  split
  · rename_i again
    exact .rearm at_ again
  · rename_i last
    exact .release at_ last

/-- **Inversion.** Every step is one of the turns. -/
theorem step_turn {a : Label} {s s' : State} (h : step a s = some s') : Turn s a s' := by
  cases a with
  | init ok =>
    obtain ⟨absent, he⟩ := Option.ite_none_right_eq_some.mp h
    cases he
    exact .init absent
  | after c => cases h; exact after_turn c s
  | every c => cases h; exact every_turn c s
  | insert i =>
    simp only [step] at h
    split at h
    · rename_i c at_
      obtain ⟨free, he⟩ := Option.ite_none_right_eq_some.mp h
      cases he
      exact .insert at_ free
    · cases h
  | ret i =>
    simp only [step] at h
    split at h
    · rename_i c at_
      cases h
      obtain ⟨ms, sent⟩ := send_frame s c.message
      rw [sent]
      exact .ret at_ sent
    · cases h
  | cancel pid id =>
    obtain ⟨free, he⟩ := Option.ite_none_right_eq_some.mp h
    cases he
    exact cancel_turn pid id free
  | shutdown c =>
    obtain ⟨⟨free, started, inside⟩, he⟩ := Option.ite_none_right_eq_some.mp h
    cases he
    exact .shutdown free started inside
  | cleanup c =>
    obtain ⟨⟨free, mem, joined⟩, he⟩ := Option.ite_none_right_eq_some.mp h
    cases he
    exact .cleanup free mem joined
  | lock =>
    obtain ⟨at_, he⟩ := Option.ite_none_right_eq_some.mp h
    cases he
    exact .lock at_
  | loop now =>
    obtain ⟨at_, he⟩ := Option.ite_none_right_eq_some.mp h
    cases he
    exact loop_turn now at_
  | call =>
    simp only [step] at h
    split at h
    · rename_i t at_
      cases h
      exact .call at_
    · cases h
  | cbReturn =>
    simp only [step] at h
    split at h
    · rename_i t at_
      obtain ⟨back, he⟩ := Option.ite_none_left_eq_some.mp h
      cases he
      exact .cbReturn at_ back
    · cases h
  | cbCrash =>
    simp only [step] at h
    split at h
    · rename_i t at_
      obtain ⟨back, he⟩ := Option.ite_none_left_eq_some.mp h
      cases he
      exact .cbCrash at_ back
    · cases h
  | relock now =>
    simp only [step] at h
    split at h
    · rename_i t at_
      cases h
      exact relock_turn now at_
    · cases h
  | connect flag => cases h; exact .connect

end Scheduler
end CoreCDTL
