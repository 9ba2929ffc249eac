import CoreCDTL.Lib.CString
import CoreCDTL.Lib.Machine
import Mathlib.Logic.Function.Basic

/-!
# The critical-error queue (`core/log.c`)

Crashed callbacks leave a message in `g_critical_error_queues`, a table of 63 slots, and one
consumer thread writes the messages to a file.

* **The bitmap.** `g_critical_error_bitmap` has 32 bits; `1U << i` is the shift by `i % 32`, so the
  slots `i` and `i + 32` share a bit (`isUsed_mark`, `isUsed_clear`).
* **Producers** (`addCriticalError`) fill the first slot whose bit is clear, in one critical
  section.
* **The consumer** scans the slots from 0 on. For each used one it takes the message out under the
  lock and writes it with the lock released (`Pc.writing`), then goes on with the next slot
  (`Pc.relock`).
* A message is known by its number in `stored`, the history of all messages put into a slot.
  `delivered` are the numbers handed to `write_critical_error_to_file`, in order.
-/

namespace CoreCDTL
namespace Log

def MAX_CRITICAL_ERROR_QUEUE_SIZE : Nat := 63

/-! ## The texts -/

/-- The fields of `error_context_t` that a message shows. -/
structure ErrorContext where
  signal : Int
  signalCode : Int
  faultAddress : Nat
  deriving DecidableEq, Repr

/-- `log_critical_error_queue_source_t`. -/
inductive Source where
  | scheduler | eventBus
  deriving DecidableEq, Repr

/-- The number of a source. -/
def Source.toNat : Source → Nat
  | .scheduler => 0
  | .eventBus => 1

/-- The text of `%p`. -/
def fmtP (a : Nat) : CStr := if a = 0 then "(nil)".toList else "0x".toList ++ Nat.toDigits 16 a

/-- The text of `%s`. -/
def fmtS (s : Option CStr) : CStr := s.getD "(null)".toList

/-- The end of both messages: ` %d %d %p`. -/
def ErrorContext.text (ctx : ErrorContext) : CStr :=
  ' ' :: fmtD ctx.signal ++ ' ' :: fmtD ctx.signalCode ++ ' ' :: fmtP ctx.faultAddress

/-- `critical_error_buffer` in `add_event_bus_critical_error`; `ts` is the time stamp. -/
def eventBusText (ts : CStr) (pluginName : Option CStr) (name : CStr) (source : Source)
    (ctx : ErrorContext) : CStr :=
  snprintf 255 ('[' :: ts ++ "] [".toList ++ fmtS pluginName ++ "] ".toList ++
    fmtD source.toNat ++ " [".toList ++ name ++ ']' :: ctx.text)

/-- `critical_error_buffer` in `add_scheduler_critical_error`. -/
def schedulerText (ts : CStr) (pluginName : Option CStr) (timerId : Int) (source : Source)
    (ctx : ErrorContext) : CStr :=
  snprintf 255 ('[' :: ts ++ "] [".toList ++ fmtS pluginName ++ "] ".toList ++
    fmtD source.toNat ++ ' ' :: fmtD timerId ++ ctx.text)

/-! ## The bitmap -/

/-- `1U << i`. -/
def slotBit (i : Nat) : BitVec 32 := 1#32 <<< (i % 32)

/-- `g_critical_error_bitmap & (1U << i)`. -/
def isUsed (b : BitVec 32) (i : Nat) : Bool := b &&& slotBit i ≠ 0#32

/-- `mark_slot_used`. -/
def markSlotUsed (b : BitVec 32) (i : Nat) : BitVec 32 := b ||| slotBit i

/-- `g_critical_error_bitmap &= ~(1U << i)`. -/
def clearSlot (b : BitVec 32) (i : Nat) : BitVec 32 := b &&& ~~~slotBit i

theorem getLsbD_slotBit (i j : Nat) : (slotBit i).getLsbD j = decide (j = i % 32) := by
  unfold slotBit
  rw [← BitVec.twoPow_eq, BitVec.getLsbD_twoPow]
  have : i % 32 < 32 := Nat.mod_lt _ (by decide)
  by_cases h : j = i % 32
  · simp [h, this]
  · simp [h, this, Ne.symm h]

theorem isUsed_eq (b : BitVec 32) (i : Nat) : isUsed b i = b.getLsbD (i % 32) := by
  have hlt : i % 32 < 32 := Nat.mod_lt _ (by decide)
  unfold isUsed
  cases hb : b.getLsbD (i % 32) with
  | true =>
    rw [decide_eq_true_iff]
    intro h
    have := congrArg (fun x => BitVec.getLsbD x (i % 32)) h
    simp [getLsbD_slotBit, hb] at this
  | false =>
    rw [decide_eq_false_iff_not, not_not]
    apply BitVec.eq_of_getLsbD_eq
    intro k hk
    simp only [BitVec.getLsbD_and, getLsbD_slotBit, BitVec.getLsbD_zero, Bool.and_eq_false_iff,
      decide_eq_false_iff_not]
    by_cases h : k = i % 32
    · exact .inl (h ▸ hb)
    · exact .inr h

theorem isUsed_mark (b : BitVec 32) (i j : Nat) :
    isUsed (markSlotUsed b i) j = (isUsed b j || decide (j % 32 = i % 32)) := by
  simp only [isUsed_eq, markSlotUsed, BitVec.getLsbD_or, getLsbD_slotBit]

theorem isUsed_clear (b : BitVec 32) (i j : Nat) :
    isUsed (clearSlot b i) j = (isUsed b j && decide (j % 32 ≠ i % 32)) := by
  have hlt : j % 32 < 32 := Nat.mod_lt _ (by decide)
  simp only [isUsed_eq, clearSlot, BitVec.getLsbD_and, BitVec.getLsbD_not, getLsbD_slotBit, hlt,
    decide_true, Bool.true_and, decide_not]

/-- The first 32 slots have a bit each. -/
theorem isUsed_mark_low (b : BitVec 32) {i j : Nat} (hi : i < 32) (hj : j < 32) :
    isUsed (markSlotUsed b i) j = (isUsed b j || decide (j = i)) := by
  rw [isUsed_mark, Nat.mod_eq_of_lt hi, Nat.mod_eq_of_lt hj]

theorem isUsed_clear_low (b : BitVec 32) {i j : Nat} (hi : i < 32) (hj : j < 32) :
    isUsed (clearSlot b i) j = (isUsed b j && decide (j ≠ i)) := by
  rw [isUsed_clear, Nat.mod_eq_of_lt hi, Nat.mod_eq_of_lt hj]

/-! ## The slots -/

/-- What a slot holds after a store into the slot `i`. -/
theorem update_some_eq_some {q : Nat → Option Nat} {i k m n : Nat} :
    Function.update q i (some m) k = some n ↔ k = i ∧ n = m ∨ k ≠ i ∧ q k = some n := by
  by_cases he : k = i
  · subst he
    simp [eq_comm]
  · simp [he]

/-- What a slot holds after the slot `i` was emptied. -/
theorem update_none_eq_some {q : Nat → Option Nat} {i k n : Nat} :
    Function.update q i none k = some n ↔ k ≠ i ∧ q k = some n := by
  by_cases he : k = i
  · subst he
    simp
  · simp [he]

/-! ## The threads -/

/-- Where the consumer is: before the lock of a new pass (or in its wait for a message), with a
message in its hand and the lock released, before it takes the lock again. The number is the next
slot of the scan. -/
inductive Pc where
  | top
  | writing (next : Nat) (msg : Option Nat)
  | relock (next : Nat)
  deriving DecidableEq, Repr

/-- The globals, the consumer and the history. -/
structure State where
  queues : Nat → Option Nat
  bitmap : BitVec 32
  pc : Pc
  connected : Bool
  sent : List CStr
  stored : List CStr
  delivered : List Nat

/-- After `core_log_init`. -/
def init (connected : Bool) : State := ⟨fun _ => none, 0#32, .top, connected, [], [], []⟩

/-- The search of the producers. -/
def freeSlot (b : BitVec 32) : Option Nat :=
  (List.range MAX_CRITICAL_ERROR_QUEUE_SIZE).find? fun i => ! isUsed b i

/-- Both producers, with the text of their message. Without a free slot the message is refused. -/
def addCriticalError (text : CStr) (s : State) : State :=
  match freeSlot s.bitmap with
  | none => s
  | some slot =>
    { s with
      sent := if s.connected then s.sent ++ [text] else s.sent
      queues := Function.update s.queues slot (some s.stored.length)
      stored := s.stored ++ [text]
      bitmap := markSlotUsed s.bitmap slot }

/-- The consumer's scan from a slot to the next used one. -/
def nextUsed (b : BitVec 32) (i : Nat) : Option Nat :=
  (List.range' i (MAX_CRITICAL_ERROR_QUEUE_SIZE - i)).find? fun i => isUsed b i

/-- The consumer's loop under the lock, from slot `i` on. -/
def scanFrom (i : Nat) (s : State) : State :=
  match nextUsed s.bitmap i with
  | some i =>
    { s with
      queues := Function.update s.queues i none
      bitmap := clearSlot s.bitmap i
      pc := .writing (i + 1) (s.queues i) }
  | none => { s with pc := .top }

/-- The consumer's next step. With an empty bitmap it stays in its wait. -/
def consume (s : State) : State :=
  match s.pc with
  | .top => if s.bitmap = 0#32 then s else scanFrom 0 s
  | .writing i (some n) => { s with delivered := s.delivered ++ [n], pc := .relock i }
  | .writing i none => { s with pc := .relock i }
  | .relock i => scanFrom i s

/-- The steps. -/
inductive Label where
  | addEventBus (ts : CStr) (pluginName : Option CStr) (name : CStr) (source : Source)
    (ctx : ErrorContext)
  | addScheduler (ts : CStr) (pluginName : Option CStr) (timerId : Int) (source : Source)
    (ctx : ErrorContext)
  | consume
  | connect (flag : Bool)
  deriving DecidableEq, Repr

/-- `add_event_bus_critical_error`. -/
def addEventBusCriticalError (ts : CStr) (pluginName : Option CStr) (name : CStr)
    (source : Source) (ctx : ErrorContext) (s : State) : State :=
  addCriticalError (eventBusText ts pluginName name source ctx) s

/-- `add_scheduler_critical_error`. -/
def addSchedulerCriticalError (ts : CStr) (pluginName : Option CStr) (timerId : Int)
    (source : Source) (ctx : ErrorContext) (s : State) : State :=
  addCriticalError (schedulerText ts pluginName timerId source ctx) s

/-- Every step can always be taken. -/
def step (a : Label) (s : State) : Option State :=
  match a with
  | .addEventBus ts pluginName name source ctx =>
    some (addEventBusCriticalError ts pluginName name source ctx s)
  | .addScheduler ts pluginName timerId source ctx =>
    some (addSchedulerCriticalError ts pluginName timerId source ctx s)
  | .consume => some (consume s)
  | .connect flag => some { s with connected := flag }

/-- The queue as a machine. -/
def machine : Machine State Label := ⟨step⟩

end Log
end CoreCDTL
