import CoreCDTL.Lib.Memory
import CoreCDTL.Log.CriticalErrors

/-!
# Crash recovery (`core/crash_recovery.c`)

A thread that runs callbacks has an `error_context_t` of its own and a copy of it on its stack
(`local_ctx`). When a callback crashes, `crash_handler` looks for a context by its marker from the
stack pointer upwards, writes the crash into it and jumps back to the thread, which reports the
crash to the log.

* `Mem` is the address space; an `error_context_t` is 24 bytes at an address.
* `Thread` is the scheduler thread or a bus worker, `Thread.machine` the thread between two
  callbacks: a callback leaves the memory in any state in which the thread's own context is as it
  was, and returns or crashes with any stack pointer from which the scan finds the thread's copy.
* `crash_reported_empty`: the handler writes to the copy, and the thread reports the original.
-/

namespace CoreCDTL
namespace Crash

open Log (ErrorContext Source)

/-! ## Contexts -/

def SCHEDULER_ERROR_MARKER : Nat := 0xBEADBEEFCAFEBABE
def EVENT_BUS_ERROR_MARKER : Nat := 0xDEADBEEFCAFEBABE

/-- `RAW_BUFFER_SIZE`. -/
def RAW_BUFFER_SIZE : Nat := 512

/-- `sizeof(error_context_t)`: the marker, `signal` at 8, `signal_code` at 12, `fault_address` at
16. -/
def sizeofErrorContext : Nat := 24

/-- The marker of a thread's context. -/
def marker : Source → Nat
  | .scheduler => SCHEDULER_ERROR_MARKER
  | .eventBus => EVENT_BUS_ERROR_MARKER

/-- A signal that `crash_recovery_init` installs the handler for (`SIGSEGV`, `SIGBUS`, `SIGILL`,
`SIGFPE`), with the two fields of its `siginfo_t`. -/
structure Signal where
  sig : Int
  siCode : Int
  siAddr : Nat
  handled : sig ∈ [11, 7, 4, 8]
  code : -(2 ^ 31) ≤ siCode ∧ siCode < 2 ^ 31
  addr : siAddr < 2 ^ 64

/-- What a record of the crash should say. -/
def Signal.context (c : Signal) : ErrorContext := ⟨c.sig, c.siCode, c.siAddr⟩

/-- The context at an address. -/
def readContext (m : Mem) (ctx : Nat) : ErrorContext :=
  ⟨m.readInt (ctx + 8), m.readInt (ctx + 12), m.readPtr (ctx + 16)⟩

/-- The three assignments of the handler. -/
def writeContext (ctx : Nat) (c : Signal) (m : Mem) : Mem :=
  ((m.writeInt (ctx + 8) c.sig).writeInt (ctx + 12) c.siCode).writePtr (ctx + 16) c.siAddr

/-! ## The handler -/

/-- The scan: the address of the first context and whose it is. -/
def scan (sp : Nat) (m : Mem) : Option (Nat × Source) :=
  (List.range (RAW_BUFFER_SIZE - sizeofErrorContext)).findSome? fun i =>
    if m.readPtr (sp + i) = SCHEDULER_ERROR_MARKER then some (sp + i, .scheduler)
    else if m.readPtr (sp + i) = EVENT_BUS_ERROR_MARKER then some (sp + i, .eventBus)
    else none

/-- How `crash_handler` ends: with a jump to a kind of thread, or with `_exit`. -/
inductive Ending where
  | jumps (source : Source) (mem : Mem)
  | exits

/-- `crash_handler`. -/
def crashHandler (sp : Nat) (c : Signal) (m : Mem) : Ending :=
  match scan sp m with
  | some (ctx, source) => .jumps source (writeContext ctx c m)
  | none => .exits

/-! ## The threads -/

/-- A thread that runs callbacks, with the addresses of its `scheduler_error_ctx` or
`event_bus_error_ctx` and of its `local_ctx`: two objects. -/
structure Thread where
  source : Source
  errorCtx : Nat
  localCtx : Nat
  apart : errorCtx + sizeofErrorContext ≤ localCtx ∨ localCtx + sizeofErrorContext ≤ errorCtx

/-- What the thread ran when it crashed: a timer, or a subscription's callback for an event. -/
structure Job where
  ts : CStr
  pluginName : Option CStr
  timerId : Int
  event : CStr

/-- The call of `add_scheduler_critical_error` or `add_event_bus_critical_error`. -/
def Thread.report (t : Thread) (job : Job) (ctx : ErrorContext) : Log.Label :=
  match t.source with
  | .scheduler => .addScheduler job.ts job.pluginName job.timerId .scheduler ctx
  | .eventBus => .addEventBus job.ts job.pluginName job.event .eventBus ctx

/-- The memory, and the reports so far. -/
structure State where
  mem : Mem
  reports : List Log.Label

/-- The thread's start in a memory: its context is initialized, and copied to `local_ctx`. -/
def Thread.start (t : Thread) (m : Mem) : State :=
  let m := m.write t.errorCtx (leBytes 8 (marker t.source) ++ List.replicate 16 0)
  ⟨m.write t.localCtx (m.read t.errorCtx sizeofErrorContext), []⟩

/-- A callback that leaves the memory `after`. -/
inductive Label where
  | returns (after : Mem)
  | crashes (after : Mem) (sp : Nat) (c : Signal) (job : Job)

/-- The callback does not write the thread's own context. -/
def Thread.Keeps (t : Thread) (m after : Mem) : Prop :=
  ∀ i < sizeofErrorContext, after (t.errorCtx + i) = m (t.errorCtx + i)

instance (t : Thread) (m after : Mem) : Decidable (t.Keeps m after) :=
  inferInstanceAs (Decidable (∀ i < _, _))

/-- A callback, and what the thread does when `sigsetjmp` returns a second time. -/
def Thread.step (t : Thread) : Label → State → Option State
  | .returns after, s => if t.Keeps s.mem after then some { s with mem := after } else none
  | .crashes after sp c job, s =>
    if t.Keeps s.mem after ∧ scan sp after = some (t.localCtx, t.source) then
      match crashHandler sp c after with
      | .jumps _ m => some ⟨m, s.reports ++ [t.report job (readContext m t.errorCtx)]⟩
      | .exits => none
    else none

def Thread.machine (t : Thread) : Machine State Label := ⟨t.step⟩

/-! ## What is written and what is read -/

/-- The handler's copy holds the crash. -/
theorem readContext_writeContext (ctx : Nat) (c : Signal) (m : Mem) :
    readContext (writeContext ctx c m) ctx = c.context := by
  have hsig : -(2 ^ 31) ≤ c.sig ∧ c.sig < 2 ^ 31 := by
    have := c.handled
    simp only [List.mem_cons, List.not_mem_nil, or_false] at this
    omega
  have frame : ∀ (m : Mem) (o o' : Nat) (bs : List UInt8),
      (o' + 4 ≤ o ∨ o + bs.length ≤ o') → (m.write o bs).readInt o' = m.readInt o' := by
    intro m o o' bs h
    unfold Mem.readInt
    rw [Mem.read_write_disjoint h]
  unfold readContext writeContext Signal.context
  simp only [ErrorContext.mk.injEq]
  refine ⟨?_, ?_, Mem.readPtr_writePtr _ _ c.addr⟩
  · rw [Mem.writePtr, frame _ _ _ _ (.inl (by omega)), Mem.writeInt, frame _ _ _ _ (.inl (by omega)),
      Mem.readInt_writeInt _ _ hsig.1 hsig.2]
  · rw [Mem.writePtr, frame _ _ _ _ (.inl (by omega)),
      Mem.readInt_writeInt _ _ c.code.1 c.code.2]

/-- The handler writes nothing outside the fields of the context. -/
theorem writeContext_other {ctx i : Nat} (c : Signal) (m : Mem)
    (h : i < ctx ∨ ctx + sizeofErrorContext ≤ i) : writeContext ctx c m i = m i := by
  have write_other : ∀ (m : Mem) (o : Nat) (bs : List UInt8), (i < o ∨ o + bs.length ≤ i) →
      m.write o bs i = m i := fun m o bs h => if_neg (by omega)
  unfold sizeofErrorContext at h
  unfold writeContext Mem.writePtr Mem.writeInt
  rw [write_other, write_other, write_other]
  all_goals rw [leBytes_length]; omega

/-- The fields of the context at an address are zero. -/
def Empty (m : Mem) (ctx : Nat) : Prop := ∀ i, 8 ≤ i → i < sizeofErrorContext → m (ctx + i) = 0

theorem Empty.readContext {m : Mem} {ctx : Nat} (h : Empty m ctx) :
    readContext m ctx = ⟨0, 0, 0⟩ := by
  have hread : ∀ o n, 8 ≤ o → o + n ≤ sizeofErrorContext →
      m.read (ctx + o) n = List.replicate n 0 := by
    intro o n h₁ h₂
    have hm : m.read (ctx + o) n = Mem.read (fun _ => 0) (ctx + o) n := by
      apply Mem.read_congr
      intro i hi₁ hi₂
      rw [show i = ctx + (i - ctx) by omega]
      exact h (i - ctx) (by omega) (by omega)
    rw [hm]
    simp [Mem.read, List.map_const']
  have hzero : ∀ n, leNat (List.replicate n 0) = 0 := fun n => by simp [leNat]
  unfold Crash.readContext Mem.readInt Mem.readPtr
  rw [hread 8 4 (by decide) (by decide), hread 12 4 (by decide) (by decide),
    hread 16 8 (by decide) (by decide), hzero, hzero]
  rfl

variable {t : Thread}

theorem empty_start (t : Thread) (m : Mem) : Empty (t.start m).mem t.errorCtx := by
  intro i h₁ h₂
  have hap := t.apart
  unfold sizeofErrorContext at h₂ hap
  have hlen : (leBytes 8 (marker t.source) ++ List.replicate 16 (0 : UInt8)).length = 24 := by simp
  show Mem.write _ t.localCtx _ (t.errorCtx + i) = 0
  rw [Mem.write, if_neg (by simp [Mem.read, sizeofErrorContext]; omega), Mem.write,
    if_pos (by rw [hlen]; omega), Nat.add_sub_cancel_left,
    List.getD_append_right _ _ _ _ (by rw [leBytes_length]; omega), leBytes_length,
    List.getD_replicate _ (by omega)]

/-- No step writes the thread's own context. -/
theorem empty_keeps (t : Thread) : t.machine.Keeps (fun _ _ => True) fun s => Empty s.mem t.errorCtx := by
  intro s l s' hs _ h
  have hafter : ∀ after, t.Keeps s.mem after → Empty after t.errorCtx := fun after hk i h₁ h₂ =>
    (hk i h₂).trans (hs i h₁ h₂)
  replace h : t.step l s = some s' := h
  cases l with
  | returns after =>
    simp only [Thread.step] at h
    split at h
    · rename_i hk
      cases h
      exact hafter after hk
    · cases h
  | crashes after sp c job =>
    simp only [Thread.step] at h
    split at h
    · rename_i hk
      rw [crashHandler, hk.2] at h
      cases h
      intro i h₁ h₂
      have hap := t.apart
      exact (writeContext_other c after (by omega)).trans (hafter after hk.1 i h₁ h₂)
    · cases h

/-- **Crash records.** Whatever callbacks a thread ran before and whatever the crash: the handler
writes it to the copy on the stack, and the thread reports its own context, which is empty. -/
theorem crash_reported_empty {m : Mem} {ls : List Label} {s s' : State} {after : Mem} {sp : Nat}
    {c : Signal} {job : Job} (hr : t.machine.run ls (t.start m) = some s)
    (hs : t.machine.step (.crashes after sp c job) s = some s') :
    readContext s'.mem t.localCtx = c.context ∧
      s'.reports = s.reports ++ [t.report job ⟨0, 0, 0⟩] ∧ c.context ≠ ⟨0, 0, 0⟩ := by
  have hempty := (empty_keeps t).run_all (empty_start t m) hr
  have hempty' := empty_keeps t s _ s' hempty trivial hs
  replace hs : t.step (.crashes after sp c job) s = some s' := hs
  simp only [Thread.step] at hs
  split at hs
  · rename_i hk
    rw [crashHandler, hk.2] at hs
    cases hs
    refine ⟨readContext_writeContext _ c after, ?_, fun he => ?_⟩
    · rw [hempty'.readContext]
    · have hsig : c.sig = 0 := congrArg ErrorContext.signal he
      have := c.handled
      rw [hsig] at this
      exact absurd this (by decide)
  · cases hs

/-- A scheduler thread and a bus worker, with the two contexts next to each other. -/
def thread (source : Source) : Thread := ⟨source, 0, 24, .inl (Nat.le_refl 24)⟩

/-- `SIGSEGV` with `SEGV_MAPERR` at address 16. -/
def segv : Signal := ⟨11, 1, 16, by decide, by decide, by decide⟩

/-- The timer callback. -/
def timerJob : Job := ⟨[], none, 1, []⟩

/-- A timer callback crashes with the stack pointer at the copy. -/
theorem crash_reported_empty_timer :
    ∃ s', (thread .scheduler).machine.step
        (.crashes ((thread .scheduler).start fun _ => 0).mem 24 segv timerJob)
        ((thread .scheduler).start fun _ => 0) = some s' ∧
      readContext s'.mem 24 = ⟨11, 1, 16⟩ ∧
      s'.reports = [.addScheduler [] none 1 .scheduler ⟨0, 0, 0⟩] := by
  have hrun : ((thread .scheduler).machine.step
      (.crashes ((thread .scheduler).start fun _ => 0).mem 24 segv timerJob)
      ((thread .scheduler).start fun _ => 0)).isSome = true := by
    decide +kernel
  obtain ⟨s', hs⟩ := Option.isSome_iff_exists.mp hrun
  have hr : (thread .scheduler).machine.run [] ((thread .scheduler).start fun _ => 0) = some _ :=
    rfl
  obtain ⟨h₁, h₂, -⟩ := crash_reported_empty hr hs
  exact ⟨s', hs, h₁, h₂⟩

/-- **A crash without its signal.** A segmentation fault in a bus callback is reported as signal
0. -/
theorem worker_crash_lost :
    ∃ s', (thread .eventBus).machine.run
        [.crashes ((thread .eventBus).start fun _ => 0).mem 24 segv timerJob]
        ((thread .eventBus).start fun _ => 0) = some s' ∧
      s'.reports = [.addEventBus [] none [] .eventBus ⟨0, 0, 0⟩] ∧
      s'.reports ≠ [.addEventBus [] none [] .eventBus segv.context] := by
  have hrun : (((thread .eventBus).machine.run
      [.crashes ((thread .eventBus).start fun _ => 0).mem 24 segv timerJob]
      ((thread .eventBus).start fun _ => 0)).map (·.reports)) =
        some [.addEventBus [] none [] .eventBus ⟨0, 0, 0⟩] := by
    decide +kernel
  obtain ⟨s', hs, h⟩ := Option.map_eq_some_iff.mp hrun
  refine ⟨s', hs, h, ?_⟩
  rw [h]
  decide

end Crash
end CoreCDTL
