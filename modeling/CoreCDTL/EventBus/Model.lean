import CoreCDTL.Lib.CString
import CoreCDTL.Lib.Machine
import CoreCDTL.Lib.Ring
import CoreCDTL.Lib.Sync
import Mathlib.Logic.Function.Basic

/-!
# The event bus (`core/event_bus.c`)

`bus_publish` looks for a subscription and puts a task into a bounded queue; five worker threads take
the tasks and call the callbacks, which may call the bus again. `sub_mutex` guards the subscription
list, and `bus_publish` keeps it while it waits for space in the queue.

* Threads: any number of clients, the workers, and the thread that calls `bus_shutdown`. The clients
  and the callbacks of the workers make bus calls (`Caller`).
* `CallPc`, `WorkerPc`, `MainPc`: where a thread is in a bus call, in `bus_worker_thread`, in
  `bus_shutdown`. A step is one lock, one unlock, or what the thread does between two of them; each
  function of the source is one step function.
* Memory: a pointer that a caller passes is NULL, unreadable, or points to a value (`Ptr`).
  Dereferencing one of the first two is a crash (`Label.crash`): `crash_handler` takes a worker back
  to its loop, and a client out of the bus. A task carries its subscription and its buffer; buffers
  are numbered as `malloc` gives them. `optimized_strcmp` is equality of strings.
* `entered`, `taken`, `called`, `freed`, `results`, `sent`, `errors`: histories of the tasks that
  enter and leave the queue, of the callbacks called, of the buffers freed, of the values that bus
  calls return, of the gateway messages and of the crash records.
-/

namespace CoreCDTL
namespace EventBus

def MAX_TASKS : Nat := 100

def MAX_INIT_EVENT_BUS_THREADS : Nat := 5

instance : NeZero MAX_INIT_EVENT_BUS_THREADS := ⟨by decide⟩

/-! ## Data -/

/-- A pointer argument. -/
inductive Ptr (α : Type) where
  | null
  | bad
  | obj (a : α)
  deriving DecidableEq, Repr

/-- `sub_t`, without its list link and its number; `cb` is the callback, not NULL. -/
structure Sub where
  event : CStr
  pluginId : Nat
  cb : Nat
  user : Nat
  deriving DecidableEq, Repr

/-- A buffer that `bus_publish` allocated. -/
structure Buffer where
  id : Nat
  bytes : List UInt8
  deriving DecidableEq, Repr

/-- `bus_task_t`. -/
structure Task where
  data : Option Buffer
  len : Nat
  subPtr : Option Sub
  deriving DecidableEq, Repr

/-- The arguments of `bus_publish`. -/
structure PublishArgs where
  pluginId : Nat
  event : Ptr CStr
  data : Ptr (List UInt8)
  len : Nat
  deriving DecidableEq, Repr

/-- The arguments of `bus_subscribe`; `cb` is `none` for NULL. -/
structure SubscribeArgs where
  pluginId : Nat
  event : Ptr CStr
  cb : Option Nat
  user : Nat
  deriving DecidableEq, Repr

inductive BusCall where
  | publish (a : PublishArgs)
  | subscribe (a : SubscribeArgs)
  deriving DecidableEq, Repr

abbrev Worker := Fin MAX_INIT_EVENT_BUS_THREADS

/-- Who makes bus calls. -/
inductive Caller (κ : Type) where
  | client (k : κ)
  | worker (i : Worker)
  deriving DecidableEq, Repr

/-- Who holds mutexes. -/
inductive Thread (κ : Type) where
  | caller (t : Caller κ)
  | main
  deriving DecidableEq, Repr

/-! ## Positions -/

/-- Where a thread is in a bus call. -/
inductive CallPc where
  /-- `bus_publish` at `pthread_mutex_lock(&sub_mutex)`. -/
  | publishLock (a : PublishArgs)
  | publishSearch (a : PublishArgs)
  /-- `it` matches. -/
  | publishCopy (a : PublishArgs) (it : Sub)
  /-- No subscription matches. -/
  | publishMiss (a : PublishArgs)
  | publishMsg (a : PublishArgs)
  | publishUnlock (ret : Int)
  /-- `enqueue_task` at `pthread_mutex_lock(&g_task_event_bus_queue_t.mutex)`, also after a wait. -/
  | enqueueLock (a : PublishArgs) (task : Task)
  | enqueueTest (a : PublishArgs) (task : Task)
  /-- Asleep on `cond_not_full`. -/
  | enqueueWait (a : PublishArgs) (task : Task)
  | enqueueUnlock
  | subscribeAlloc (a : SubscribeArgs) (cb : Nat)
  | subscribeLock (s : Sub)
  | subscribeInsert (s : Sub)
  | subscribeUnlock (s : Sub)
  | subscribeMsg (s : Sub)
  deriving DecidableEq, Repr

/-- Where a worker is in `bus_worker_thread`. -/
inductive WorkerPc where
  /-- At `pthread_mutex_lock(&g_task_event_bus_queue_t.mutex)`, also after a wait. -/
  | lock
  | test
  /-- Asleep on `cond_not_empty`. -/
  | wait
  | unlock (task : Task)
  | dispatch (task : Task)
  /-- In the callback. -/
  | running (task : Task)
  /-- After `siglongjmp`. -/
  | recover (task : Task)
  | freeing (task : Task)
  /-- At the unlock before `break`. -/
  | leave
  | exited
  deriving DecidableEq, Repr

/-- Where `bus_shutdown` is. -/
inductive MainPc where
  | idle
  | lock
  | broadcast
  | unlock
  | join (i : Nat)
  | drain
  | destroyQueue
  | subLock
  | freeSubs
  | subUnlock
  | destroySub
  | done
  deriving DecidableEq, Repr

/-- The globals of `event_bus.c`, the positions of the threads, and the histories. -/
structure State (κ : Type) where
  subs : List Sub
  subMutex : Mutex (Thread κ)
  shutDown : Bool
  queue : Ring Task
  queueMutex : Mutex (Thread κ)
  notEmpty : List Worker
  notFull : List (Caller κ)
  call : Caller κ → Option CallPc
  worker : Worker → WorkerPc
  main : MainPc
  buffers : Nat
  entered : List (PublishArgs × Task)
  taken : List (Worker × Task)
  called : List Task
  freed : List Nat
  results : List (Caller κ × Int)
  sent : List CStr
  errors : List (Nat × CStr)

/-- When `bus_init` has returned: the queue is empty and each worker is at the head of its loop.
Plugins may have subscribed before. -/
def init (κ : Type) (subs : List Sub) : State κ where
  subs := subs
  subMutex := .free
  shutDown := false
  queue := Ring.empty ⟨none, 0, none⟩
  queueMutex := .free
  notEmpty := []
  notFull := []
  call := fun _ => none
  worker := fun _ => .lock
  main := .idle
  buffers := 0
  entered := []
  taken := []
  called := []
  freed := []
  results := []
  sent := []
  errors := []

/-- What a step depends on: whether `malloc` and `strdup` succeed, which sleeping thread a signal
wakes, and whether `g_gateway_connected_flag` is set. -/
structure Outcome where
  malloc : Bool
  strdup : Bool
  wake : Nat
  connected : Bool
  deriving DecidableEq, Repr

/-- All allocations succeed, the first sleeping thread wakes, the gateway is not connected. -/
def Outcome.ok : Outcome := ⟨true, true, 0, false⟩

/-! ## Bus calls -/

section Calls

variable {κ : Type} [DecidableEq κ]

/-- Move a thread in its bus call. -/
def State.goto (s : State κ) (t : Caller κ) (c : CallPc) : State κ :=
  { s with call := Function.update s.call t (some c) }

/-- Return from a bus call. -/
def State.ret (s : State κ) (t : Caller κ) (r : Int) : State κ :=
  { s with call := Function.update s.call t none, results := s.results ++ [(t, r)] }

/-- A thread that was asleep on `cond_not_full` goes on to lock the mutex. -/
def State.wakeCaller (s : State κ) : Option (Caller κ) → State κ
  | none => s
  | some t =>
    match s.call t with
    | some (.enqueueWait a task) => s.goto t (.enqueueLock a task)
    | _ => s

/-- A worker that was asleep on `cond_not_empty` goes on to lock the mutex. -/
def State.wakeWorker (s : State κ) : Option Worker → State κ
  | none => s
  | some i => { s with worker := Function.update s.worker i .lock }

/-- The start of a bus call, up to its first lock or access to memory. -/
def beginCall (t : Caller κ) (c : BusCall) (s : State κ) : State κ :=
  match c with
  | .publish a =>
    if a.pluginId = 0 then s.ret t 1
    else if a.data = .null then s.ret t 2
    else if a.len = 0 then s.ret t 3
    else s.goto t (.publishLock a)
  | .subscribe a =>
    if a.event = .null then s.ret t 2
    else
      match a.cb with
      | none => s.ret t 3
      | some cb => s.goto t (.subscribeAlloc a cb)

/-- What the search of `bus_publish` finds. -/
inductive Search where
  | notFound
  | fault
  | found (it : Sub)
  deriving DecidableEq, Repr

/-- The loop of `bus_publish` over the subscriptions. -/
def search (pluginId : Nat) (event : Ptr CStr) : List Sub → Search
  | [] => .notFound
  | it :: rest =>
    if it.pluginId = pluginId then
      match event with
      | .obj e => if it.event = e then .found it else search pluginId event rest
      | _ => .fault
    else search pluginId event rest

/-- The source of `memcpy(task.data, data, len)`. -/
def readable (data : Ptr (List UInt8)) (len : Nat) : Option (List UInt8) :=
  match data with
  | .obj bytes => if len ≤ bytes.length then some (bytes.take len) else none
  | _ => none

/-- `"[publish] %d [%s]"` and `"[subscribe] %d [%s]"`. -/
def busMsg (kind : CStr) (pluginId : Nat) (event : CStr) : CStr :=
  snprintf 512 ("[".toList ++ kind ++ "] ".toList ++ fmtD ((pluginId : Int).bmod (2 ^ 32)) ++
    " [".toList ++ event ++ "]".toList)

/-- The text of a `%s` argument. -/
def strArg : Ptr CStr → Option CStr
  | .null => some "(null)".toList
  | .bad => none
  | .obj e => some e

/-- A step of `bus_publish`, `enqueue_task` or `bus_subscribe`; `none` when the thread blocks or
faults. -/
def callStep (t : Caller κ) (o : Outcome) (c : CallPc) (s : State κ) : Option (State κ) :=
  match c with
  | .publishLock a =>
    (s.subMutex.lock (.caller t)).map fun m => { s with subMutex := m }.goto t (.publishSearch a)
  | .publishSearch a =>
    match search a.pluginId a.event s.subs with
    | .notFound => some (s.goto t (.publishMiss a))
    | .fault => none
    | .found it => some (s.goto t (.publishCopy a it))
  | .publishCopy a it =>
    if o.malloc = false then some (s.goto t (.publishUnlock 5))
    else
      (readable a.data a.len).map fun bytes =>
        { s with buffers := s.buffers + 1 }.goto t
          (.enqueueLock a ⟨some ⟨s.buffers, bytes⟩, a.len, some it⟩)
  | .publishMiss a => some ({ s with subMutex := s.subMutex.unlock }.goto t (.publishMsg a))
  | .publishMsg a =>
    if o.connected then
      (strArg a.event).map fun e =>
        { s with sent := s.sent ++ [busMsg "publish".toList a.pluginId e] }.ret t 4
    else some (s.ret t 4)
  | .publishUnlock r => some ({ s with subMutex := s.subMutex.unlock }.ret t r)
  | .enqueueLock a task =>
    (s.queueMutex.lock (.caller t)).map fun m =>
      { s with queueMutex := m }.goto t (.enqueueTest a task)
  | .enqueueTest a task =>
    if s.queue.count = MAX_TASKS ∧ s.shutDown = false then
      some ({ s with queueMutex := s.queueMutex.unlock, notFull := s.notFull ++ [t] }.goto t
        (.enqueueWait a task))
    else if s.shutDown then some (s.goto t .enqueueUnlock)
    else
      (signal s.notEmpty o.wake).map fun (i, rest) =>
        ({ s with queue := s.queue.push MAX_TASKS task
                  entered := s.entered ++ [(a, task)]
                  notEmpty := rest }.wakeWorker i).goto t .enqueueUnlock
  | .enqueueWait _ _ => none
  | .enqueueUnlock =>
    some ({ s with queueMutex := s.queueMutex.unlock }.goto t (.publishUnlock 0))
  | .subscribeAlloc a cb =>
    if o.malloc = false then some (s.ret t 4)
    else
      match a.event with
      | .obj e =>
        if o.strdup = false then some (s.ret t 5)
        else some (s.goto t (.subscribeLock ⟨e, a.pluginId, cb, a.user⟩))
      | _ => none
  | .subscribeLock n =>
    (s.subMutex.lock (.caller t)).map fun m => { s with subMutex := m }.goto t (.subscribeInsert n)
  | .subscribeInsert n => some ({ s with subs := n :: s.subs }.goto t (.subscribeUnlock n))
  | .subscribeUnlock n =>
    some ({ s with subMutex := s.subMutex.unlock }.goto t (.subscribeMsg n))
  | .subscribeMsg n =>
    let sent := if o.connected then [busMsg "subscribe".toList n.pluginId n.event] else []
    some ({ s with sent := s.sent ++ sent }.ret t 0)

/-- The thread is at an access to memory that its caller named and that is not there. -/
def faults (s : State κ) : CallPc → Bool
  | .publishSearch a => search a.pluginId a.event s.subs = .fault
  | .publishCopy a _ => readable a.data a.len = none
  | .publishMsg a => strArg a.event = none
  | .subscribeAlloc a _ =>
    match a.event with
    | .obj _ => false
    | _ => true
  | _ => false

end Calls

/-! ## Workers and shutdown -/

section Threads

variable {κ : Type} [DecidableEq κ]

/-- Move a worker in its loop. -/
def State.gotoWorker (s : State κ) (i : Worker) (w : WorkerPc) : State κ :=
  { s with worker := Function.update s.worker i w }

/-- `free(task.data)`. -/
def State.freeData (s : State κ) (task : Task) : State κ :=
  { s with freed := s.freed ++ task.data.toList.map (·.id) }

/-- A step of `bus_worker_thread`. -/
def workerStep (i : Worker) (o : Outcome) (s : State κ) : Option (State κ) :=
  match s.worker i with
  | .lock =>
    (s.queueMutex.lock (.caller (.worker i))).map fun m =>
      { s with queueMutex := m }.gotoWorker i .test
  | .test =>
    if s.queue.count = 0 ∧ s.shutDown = false then
      some ({ s with queueMutex := s.queueMutex.unlock
                     notEmpty := s.notEmpty ++ [i] }.gotoWorker i .wait)
    else if s.shutDown ∧ s.queue.count = 0 then some (s.gotoWorker i .leave)
    else
      (signal s.notFull o.wake).map fun (t, rest) =>
        ({ s with queue := s.queue.pop MAX_TASKS
                  taken := s.taken ++ [(i, s.queue.front)]
                  notFull := rest }.wakeCaller t).gotoWorker i (.unlock s.queue.front)
  | .wait => none
  | .unlock task =>
    some ({ s with queueMutex := s.queueMutex.unlock }.gotoWorker i (.dispatch task))
  | .dispatch task =>
    match task.subPtr with
    | some _ => some ({ s with called := s.called ++ [task] }.gotoWorker i (.running task))
    | none => some (s.gotoWorker i (.freeing task))
  | .running _ => none
  | .recover task =>
    task.subPtr.map fun it =>
      ({ s with errors := s.errors ++ [(it.pluginId, it.event)] }.freeData task).gotoWorker i .lock
  | .freeing task => some ((s.freeData task).gotoWorker i .lock)
  | .leave => some ({ s with queueMutex := s.queueMutex.unlock }.gotoWorker i .exited)
  | .exited => none

/-- A step of `bus_shutdown`. -/
def mainStep (s : State κ) : Option (State κ) :=
  match s.main with
  | .idle => none
  | .lock => (s.queueMutex.lock .main).map fun m => { s with queueMutex := m, main := .broadcast }
  | .broadcast =>
    some { s with shutDown := true
                  notEmpty := []
                  worker := fun i => if i ∈ s.notEmpty then .lock else s.worker i
                  main := .unlock }
  | .unlock => some { s with queueMutex := s.queueMutex.unlock, main := .join 0 }
  | .join i =>
    if h : i < MAX_INIT_EVENT_BUS_THREADS then
      if s.worker ⟨i, h⟩ = .exited then some { s with main := .join (i + 1) } else none
    else some { s with main := .drain }
  | .drain =>
    let left := (s.queue.contents MAX_TASKS).flatMap fun task => task.data.toList.map (·.id)
    some { s with freed := s.freed ++ left, main := .destroyQueue }
  | .destroyQueue => some { s with queueMutex := s.queueMutex.destroy, main := .subLock }
  | .subLock => (s.subMutex.lock .main).map fun m => { s with subMutex := m, main := .freeSubs }
  | .freeSubs => some { s with subs := [], main := .subUnlock }
  | .subUnlock => some { s with subMutex := s.subMutex.unlock, main := .destroySub }
  | .destroySub => some { s with subMutex := s.subMutex.destroy, main := .done }
  | .done => none

/-- Who takes a step, and its outcome. -/
inductive Label (κ : Type) where
  /-- A client or a callback calls the bus. -/
  | call (t : Caller κ) (c : BusCall)
  /-- A thread in a bus call goes on. -/
  | go (t : Caller κ) (o : Outcome)
  /-- A worker outside of a callback goes on. -/
  | work (i : Worker) (o : Outcome)
  /-- The callback of a worker returns. -/
  | ret (i : Worker)
  /-- A crash that is recovered. -/
  | crash (t : Caller κ)
  /-- `pthread_cond_wait` returns without a signal. -/
  | wakeCaller (t : Caller κ)
  | wakeWorker (i : Worker)
  /-- `bus_shutdown` is called. -/
  | shutdown
  | main

/-- Where a crash takes the thread. -/
def State.recover (s : State κ) (t : Caller κ) : State κ :=
  match t with
  | .client _ => { s with call := Function.update s.call t none }
  | .worker i =>
    match s.worker i with
    | .running task =>
      { s with call := Function.update s.call t none }.gotoWorker i (.recover task)
    | _ => s

/-- Whether a worker is in its callback. -/
def WorkerPc.isRunning : WorkerPc → Bool
  | running _ => true
  | _ => false

/-- Whether a thread is in its own code. -/
def State.isOutside (s : State κ) (t : Caller κ) : Bool :=
  s.call t = none &&
    match t with
    | .client _ => true
    | .worker i => (s.worker i).isRunning

def step (l : Label κ) (s : State κ) : Option (State κ) :=
  match l with
  | .call t c => if s.isOutside t ∧ s.main ≠ .done then some (beginCall t c s) else none
  | .go t o => (s.call t).bind fun c => callStep t o c s
  | .work i o => workerStep i o s
  | .ret i =>
    match s.worker i with
    | .running task =>
      if s.call (.worker i) = none then some (s.gotoWorker i (.freeing task)) else none
    | _ => none
  | .crash t =>
    match s.call t with
    | some c => if faults s c then some (s.recover t) else none
    | none => if s.isOutside t then some (s.recover t) else none
  | .wakeCaller t =>
    if t ∈ s.notFull then some ({ s with notFull := s.notFull.erase t }.wakeCaller (some t))
    else none
  | .wakeWorker i =>
    if i ∈ s.notEmpty then some ({ s with notEmpty := s.notEmpty.erase i }.wakeWorker (some i))
    else none
  | .shutdown => if s.main = .idle then some { s with main := .lock } else none
  | .main => mainStep s

/-- The event bus with clients `κ`. -/
def bus (κ : Type) [DecidableEq κ] : Machine (State κ) (Label κ) := ⟨step⟩

end Threads

end EventBus
end CoreCDTL
