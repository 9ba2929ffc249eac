import CoreCDTL.Lib.CString
import CoreCDTL.Lib.Machine
import CoreCDTL.Lib.Memory
import Mathlib.Data.List.Perm.Basic

/-!
# The dispatcher (`gateway/gateway_dispatcher.c`)

Messages for the gateway are collected in an arena; a thread wakes up every 100 ms and passes what
the arena holds to the gateway's callback.

* A step is a critical section of `gateway_d_flush_mutex`, or what a thread does between two of
  them. `gateway_d_msg_add` and `gateway_d_flush` make a test without the lock first: `adding` and
  `flushing` are the calls that have passed it.
* `LoopPc`: where `dispatcher_loop` is. `MainPc`: where `gateway_dispatcher_close` is; it is called
  when no other call is in progress, and no call starts after it.
* `Msg` is a message as `gateway_msg_send` makes it (`gatewayMsgSend`).
* `calls`, `accepted`, `dropped`, `passed` and `overrun` are history: the messages that were given
  to `gateway_d_msg_add`, those copied to the arena, those refused (with `current_offset` at that
  moment), the buffers passed to the callback, and whether a copy went past the end of the arena or
  of `msg_buf`.
-/

namespace CoreCDTL
namespace Dispatcher

def MSG_SIZE : Nat := 1024

def MAX_MSG_COUNT : Nat := 64

def MAX_TOTAL_SIZE : Nat := MSG_SIZE * MAX_MSG_COUNT

/-! ## Messages -/

/-- A message of 1 to 1023 bytes. -/
structure Msg where
  bytes : List UInt8
  pos : 0 < bytes.length
  lt : bytes.length < MSG_SIZE
  deriving DecidableEq

/-- `api_type_t`. -/
inductive ApiType where
  | eventBus | scheduler | hk | pm | crash | other
  deriving DecidableEq, Repr

/-- The `switch` of `gateway_msg_send`. -/
def ApiType.apiName : ApiType → CStr
  | eventBus => "event_bus".toList
  | scheduler => "scheduler".toList
  | hk => "hk".toList
  | pm => "pm".toList
  | crash => "crash".toList
  | other => "unknown".toList

/-- `safe_buf` in `gateway_msg_send`. -/
def safeBuf (apiType : ApiType) (linestr : CStr) : CStr :=
  snprintf 1024 ("[on_data] [".toList ++ apiType.apiName ++ "]\n".toList ++ linestr ++ ['\n'])

theorem safeBuf_pos (apiType : ApiType) (linestr : CStr) : 0 < (safeBuf apiType linestr).length := by
  simp [safeBuf, snprintf, cstr, nul]

/-- What `gateway_msg_send` gives to `gateway_d_msg_add`. -/
def gatewayMsgSend (apiType : ApiType) (linestr : CStr) : Msg where
  bytes := (safeBuf apiType linestr).map fun c => UInt8.ofNat c.toNat
  pos := by
    rw [List.length_map]
    exact safeBuf_pos apiType linestr
  lt := by
    rw [List.length_map]
    exact snprintf_length_lt (by decide) _

/-! ## State -/

/-- Where `dispatcher_loop` is: at the loop's test, in `usleep`, at the lock before the look at
`current_offset`, after the look, in `gateway_d_flush` past its first test, returned. -/
inductive LoopPc where
  | test
  | sleep
  | check
  | looked (hasData : Bool)
  | flush
  | exited
  deriving DecidableEq, Repr

/-- Where `gateway_dispatcher_close` is: not called, at `pthread_join`, returned. -/
inductive MainPc where
  | running
  | joining
  | closed
  deriving DecidableEq, Repr

/-- The globals of `gateway_dispatcher.c`, the positions of the threads, and the history. -/
structure State where
  arena : Option Mem
  currentOffset : Nat
  dispatcherRunning : Bool
  onDataCb : Option Nat
  loop : LoopPc
  main : MainPc
  adding : List Msg
  flushing : Nat
  calls : List Msg
  accepted : List Msg
  dropped : List (Msg × Nat)
  passed : List (List UInt8)
  overrun : Bool

/-- When `gateway_dispatcher_init` has returned; `arena` is what `malloc` gave, with any contents,
and `onDataFn` the number of the library of the callback. -/
def init (arena : Option Mem) (onDataFn : Nat) : State where
  arena := arena
  currentOffset := 0
  dispatcherRunning := true
  onDataCb := some onDataFn
  loop := .test
  main := .running
  adding := []
  flushing := 0
  calls := []
  accepted := []
  dropped := []
  passed := []
  overrun := false

/-! ## The steps -/

/-- A message is refused. -/
def State.drop (s : State) (msg : Msg) : State :=
  { s with dropped := s.dropped ++ [(msg, s.currentOffset)] }

/-- A copy to the arena at `current_offset`. -/
def State.copy (s : State) (bytes : List UInt8) : State :=
  { s with
    arena := s.arena.map (·.write s.currentOffset bytes)
    currentOffset := s.currentOffset + bytes.length
    overrun := s.overrun || decide (MAX_TOTAL_SIZE < s.currentOffset + bytes.length) }

/-- The newline. -/
def newline : UInt8 := 10

/-- `gateway_d_msg_add` up to its lock. -/
def addTest (msg : Msg) (s : State) : State :=
  let s := { s with calls := s.calls ++ [msg] }
  if s.arena.isNone then s.drop msg else { s with adding := s.adding ++ [msg] }

/-- `gateway_d_msg_add` under the lock. The addition is that of `size_t`. -/
def addLocked (msg : Msg) (s : State) : State :=
  if (s.currentOffset + msg.bytes.length + 1) % 2 ^ 64 ≥ MAX_TOTAL_SIZE then s.drop msg
  else { (s.copy msg.bytes).copy [newline] with accepted := s.accepted ++ [msg] }

/-- The test of `gateway_d_flush` before its lock. -/
def State.flushTest (s : State) : Bool := s.arena.isSome && decide (s.currentOffset ≠ 0)

/-- `gateway_d_flush` under the lock; `none` for a fault. -/
def flushLocked (s : State) : Option State :=
  match s.arena, s.onDataCb with
  | some arena, some _ =>
    some { s with
      passed := s.passed ++ [arena.read 0 s.currentOffset]
      overrun := s.overrun || decide (MAX_TOTAL_SIZE < s.currentOffset)
      currentOffset := 0 }
  | _, _ => none

/-- A step of `dispatcher_loop`. -/
def loopStep (s : State) : Option State :=
  match s.loop with
  | .test => some { s with loop := if s.dispatcherRunning then .sleep else .exited }
  | .sleep => some { s with loop := .check }
  | .check => some { s with loop := .looked (decide (0 < s.currentOffset)) }
  | .looked hasData => some { s with loop := if hasData && s.flushTest then .flush else .test }
  | .flush => (flushLocked s).map fun s => { s with loop := .test }
  | .exited => none

/-- `gateway_dispatcher_close` after the join. -/
def closeJoined (s : State) : State :=
  { s with arena := none, currentOffset := 0, onDataCb := none, main := .closed }

/-- The steps. -/
inductive Label where
  | add (msg : Msg)
  | addLocked (i : Nat)
  | flush
  | flushLocked
  | loop
  | close
  | join
  deriving DecidableEq

def step (l : Label) (s : State) : Option State :=
  match l with
  | .add msg => if s.main = .running then some (addTest msg s) else none
  | .addLocked i =>
    s.adding[i]?.map fun msg => { addLocked msg s with adding := s.adding.eraseIdx i }
  | .flush =>
    if s.main = .running then
      some { s with flushing := s.flushing + s.flushTest.toNat }
    else none
  | .flushLocked =>
    if s.flushing = 0 then none
    else (flushLocked s).map fun s => { s with flushing := s.flushing - 1 }
  | .loop => loopStep s
  | .close =>
    if s.main = .running ∧ s.adding = [] ∧ s.flushing = 0 then
      some { s with dispatcherRunning := false, main := .joining }
    else none
  | .join => if s.main = .joining ∧ s.loop = .exited then some (closeJoined s) else none

def dispatcher : Machine State Label := ⟨step⟩

end Dispatcher
end CoreCDTL
