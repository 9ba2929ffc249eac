import CoreCDTL.Lib.LockOrder
import Mathlib.Data.Fintype.Basic

/-!
# The mutexes of the daemon

What the functions of `core/log.c`, `gateway/gateway_dispatcher.c`, `core/scheduler.c` and of the
other components do to the mutexes, but for the two of the event bus, which no thread takes together
with one of these. A `Call` is a function with the outcomes that its branches depend on, `Call.code`
are its locks and unlocks; a wait on a condition variable releases its mutex and takes it again.

* `Mutex.rank`: the order that all functions keep (`code_nested`). A producer of critical errors
  sends to the gateway with `g_critical_error_mtx` held, the dispatcher warns with its mutex held,
  and all of them end at `g_log_mtx`.
* `on_data` is a function of the gateway library: `onData` are the locks it may take, which have to be
  above the dispatcher's mutex.
* `crash_handler` jumps out of whatever the thread was in, to the recovery of the bus worker or of
  the scheduler thread.
* `calls_finish_iff`: no call ever blocks for good if and only if no crash has happened with a mutex
  held.
-/

namespace CoreCDTL
namespace Mutexes

open LockOrder

/-! ## The code -/

inductive Mutex where
  | schedulerMtx
  | criticalErrorMtx
  | gatewayDFlushMutex
  | errorFileMtx
  | logMtx
  deriving DecidableEq, Repr

/-- The order in which the mutexes are taken. -/
def Mutex.rank : Mutex → Nat
  | .schedulerMtx | .criticalErrorMtx => 0
  | .gatewayDFlushMutex | .errorFileMtx => 1
  | .logMtx => 2

abbrev Code := List (LockOp Mutex)

/-- The levels that the build leaves in. -/
structure Build where
  debug : Bool
  info : Bool
  warn : Bool
  deriving DecidableEq, Repr

inductive Level where
  | debug | info | warn | error
  deriving DecidableEq, Repr

/-- `core_log_internal`, and `plugin_log_internal`. -/
def logInternal : Code := critical .logMtx []

/-- `core_log_debug`, `core_log_info`, `core_log_warn` and `core_log_error`. -/
def coreLog (b : Build) : Level → Code
  | .debug => if b.debug then logInternal else []
  | .info => if b.info then logInternal else []
  | .warn => if b.warn then logInternal else []
  | .error => logInternal

/-- `write_critical_error_to_file`; `opened` is the outcome of `fopen`. -/
def writeCriticalErrorToFile (b : Build) (opened : Bool) : Code :=
  critical .errorFileMtx (if opened then [] else coreLog b .error)

/-- What `gateway_d_msg_add` finds: an arena, and no room in it. -/
structure Arena where
  present : Bool
  full : Bool
  deriving DecidableEq, Repr

/-- `gateway_d_msg_add`. -/
def gatewayDMsgAdd (b : Build) (a : Arena) : Code :=
  if a.present then critical .gatewayDFlushMutex (if a.full then coreLog b .warn else [])
  else coreLog b .warn

/-- `gateway_msg_send` behind the test of `g_gateway_connected_flag`, which is set where there is an
arena to find. -/
def announce (b : Build) (gateway : Option Arena) : Code :=
  match gateway with
  | some a => gatewayDMsgAdd b a
  | none => []

/-- `gateway_d_flush`. -/
def gatewayDFlush (onData : Code) (empty : Bool) : Code :=
  if empty then [] else critical .gatewayDFlushMutex onData

/-- One round of `dispatcher_loop`. -/
def dispatcherRound (onData : Code) (hasData empty : Bool) : Code :=
  critical .gatewayDFlushMutex [] ++ if hasData then gatewayDFlush onData empty else []

/-- `add_event_bus_critical_error` and `add_scheduler_critical_error`. -/
def addCriticalError (b : Build) (slot : Bool) (gateway : Option Arena) : Code :=
  if slot then critical .criticalErrorMtx (announce b gateway)
  else critical .criticalErrorMtx [] ++ coreLog b .warn

/-- A pass of `critical_error_consumer_thread`: its waits, and for each used slot whether it holds a
message, and the outcome of `fopen` for it. -/
def consumerPass (b : Build) (waits : Nat) (slots : List (Option Bool)) : Code :=
  critical .criticalErrorMtx
    ((List.replicate waits (released .criticalErrorMtx [])).flatten ++
      (slots.map fun msg => released .criticalErrorMtx
        (match msg with
        | some opened => writeCriticalErrorToFile b opened
        | none => [])).flatten)

/-- `scheduler_after_ms`, `scheduler_every_ms` and `scheduler_cancel`: refused before the lock, or
with what is sent behind it. -/
def schedulerCall (b : Build) (refused : Bool) (gateway : Option Arena) : Code :=
  if refused then [] else critical .schedulerMtx [] ++ announce b gateway

/-- `scheduler_shutdown`: before and behind `pthread_join`. -/
def schedulerShutdown : Code := critical .schedulerMtx [] ++ critical .schedulerMtx []

/-- `sched_thread` from where it takes `g_mtx` to the next callback or to its end. -/
def schedSection (waits : Nat) : Code :=
  critical .schedulerMtx (List.replicate waits (released .schedulerMtx [])).flatten

/-- The calls that take a mutex, with the outcomes that decide what they do to it. `δ` are the
outcomes of `on_data`. -/
inductive Call (δ : Type) where
  | coreLog (level : Level)
  | pluginLog
  | announce (gateway : Option Arena)
  | dispatcherRound (hasData empty : Bool) (d : δ)
  | addEventBusCriticalError (slot : Bool) (gateway : Option Arena)
  | addSchedulerCriticalError (slot : Bool) (gateway : Option Arena)
  | consumerPass (waits : Nat) (slots : List (Option Bool))
  | schedulerAfterMs (refused : Bool) (gateway : Option Arena)
  | schedulerEveryMs (refused : Bool) (gateway : Option Arena)
  | schedulerCancel (refused : Bool) (gateway : Option Arena)
  | schedulerShutdown
  | schedSection (waits : Nat)

variable {δ : Type}

def Call.code (b : Build) (onData : δ → Code) : Call δ → Code
  | .coreLog level => Mutexes.coreLog b level
  | .pluginLog => logInternal
  | .announce gateway => Mutexes.announce b gateway
  | .dispatcherRound hasData empty d => Mutexes.dispatcherRound (onData d) hasData empty
  | .addEventBusCriticalError slot gateway => addCriticalError b slot gateway
  | .addSchedulerCriticalError slot gateway => addCriticalError b slot gateway
  | .consumerPass waits slots => Mutexes.consumerPass b waits slots
  | .schedulerAfterMs refused gateway => schedulerCall b refused gateway
  | .schedulerEveryMs refused gateway => schedulerCall b refused gateway
  | .schedulerCancel refused gateway => schedulerCall b refused gateway
  | .schedulerShutdown => Mutexes.schedulerShutdown
  | .schedSection waits => Mutexes.schedSection waits

/-! ## The order -/

abbrev Ranked (r : Nat) (c : Code) : Prop := Nested Mutex.rank r c

theorem critical_ranked (m : Mutex) {r : Nat} (hr : r ≤ m.rank) {c : Code}
    (hc : Ranked (m.rank + 1) c) : Ranked r (critical m c) :=
  Inside.critical hr hc.inside

theorem logInternal_ranked : Ranked 2 logInternal :=
  critical_ranked .logMtx (Nat.le_refl _) (Nested.nil _)

theorem coreLog_ranked (b : Build) (level : Level) : Ranked 2 (coreLog b level) := by
  unfold coreLog
  split
  · split
    · exact logInternal_ranked
    · exact Nested.nil _
  · split
    · exact logInternal_ranked
    · exact Nested.nil _
  · split
    · exact logInternal_ranked
    · exact Nested.nil _
  · exact logInternal_ranked

theorem writeCriticalErrorToFile_ranked (b : Build) (opened : Bool) :
    Ranked 1 (writeCriticalErrorToFile b opened) := by
  refine critical_ranked .errorFileMtx (Nat.le_refl _) ?_
  split
  · exact Nested.nil _
  · exact coreLog_ranked b .error

theorem announce_ranked (b : Build) (gateway : Option Arena) : Ranked 1 (announce b gateway) := by
  unfold announce gatewayDMsgAdd
  split
  · split
    · refine critical_ranked .gatewayDFlushMutex (Nat.le_refl _) ?_
      split
      · exact coreLog_ranked b .warn
      · exact Nested.nil _
    · exact (coreLog_ranked b .warn).mono (by decide)
  · exact Nested.nil _

theorem addCriticalError_ranked (b : Build) (slot : Bool) (gateway : Option Arena) :
    Ranked 0 (addCriticalError b slot gateway) := by
  unfold addCriticalError
  split
  · exact critical_ranked .criticalErrorMtx (Nat.le_refl _) (announce_ranked b gateway)
  · exact (critical_ranked .criticalErrorMtx (Nat.le_refl _) (Nested.nil _)).append
      ((coreLog_ranked b .warn).mono (by decide))

/-- The waits of a thread, and all else that it does piece by piece in a critical section. -/
theorem inside_flatten {m : Mutex} {cs : List Code} (h : ∀ c ∈ cs, Inside Mutex.rank m c) :
    Inside Mutex.rank m cs.flatten := by
  induction cs with
  | nil => exact fun _ _ => rfl
  | cons c cs ih =>
    exact (h c List.mem_cons_self).append (ih fun d hd => h d (List.mem_cons_of_mem _ hd))

theorem waits_inside (m : Mutex) (waits : Nat) :
    Inside Mutex.rank m (List.replicate waits (released m [])).flatten :=
  inside_flatten fun c hc => by
    rw [List.eq_of_mem_replicate hc]
    exact Inside.released (Nested.nil _)

theorem consumerPass_ranked (b : Build) (waits : Nat) (slots : List (Option Bool)) :
    Ranked 0 (consumerPass b waits slots) := by
  refine Inside.critical (Nat.le_refl _) ((waits_inside _ waits).append (inside_flatten ?_))
  intro c hc
  obtain ⟨msg, -, rfl⟩ := List.mem_map.mp hc
  refine Inside.released ?_
  cases msg with
  | none => exact Nested.nil _
  | some opened => exact (writeCriticalErrorToFile_ranked b opened).mono (by decide)

theorem schedulerCall_ranked (b : Build) (refused : Bool) (gateway : Option Arena) :
    Ranked 0 (schedulerCall b refused gateway) := by
  unfold schedulerCall
  split
  · exact Nested.nil _
  · exact (critical_ranked .schedulerMtx (Nat.le_refl _) (Nested.nil _)).append
      ((announce_ranked b gateway).mono (by decide))

theorem dispatcherRound_ranked {onData : Code} (h : Ranked 2 onData) (hasData empty : Bool) :
    Ranked 1 (dispatcherRound onData hasData empty) := by
  refine (critical_ranked .gatewayDFlushMutex (Nat.le_refl _) (Nested.nil _)).append ?_
  split
  · unfold gatewayDFlush
    split
    · exact Nested.nil _
    · exact critical_ranked .gatewayDFlushMutex (Nat.le_refl _) h
  · exact Nested.nil _

/-- **The order of the mutexes.** Every call takes them in order, and releases them. -/
theorem code_nested (b : Build) {onData : δ → Code} (h : ∀ d, Ranked 2 (onData d)) (f : Call δ) :
    Ranked 0 (f.code b onData) := by
  cases f with
  | coreLog level => exact (coreLog_ranked b level).mono (by decide)
  | pluginLog => exact logInternal_ranked.mono (by decide)
  | announce gateway => exact (announce_ranked b gateway).mono (by decide)
  | dispatcherRound hasData empty d =>
    exact (dispatcherRound_ranked (h d) hasData empty).mono (by decide)
  | addEventBusCriticalError slot gateway => exact addCriticalError_ranked b slot gateway
  | addSchedulerCriticalError slot gateway => exact addCriticalError_ranked b slot gateway
  | consumerPass waits slots => exact consumerPass_ranked b waits slots
  | schedulerAfterMs refused gateway => exact schedulerCall_ranked b refused gateway
  | schedulerEveryMs refused gateway => exact schedulerCall_ranked b refused gateway
  | schedulerCancel refused gateway => exact schedulerCall_ranked b refused gateway
  | schedulerShutdown =>
    have h := critical_ranked .schedulerMtx (Nat.le_refl 0) (Nested.nil _)
    exact h.append h
  | schedSection waits => exact Inside.critical (Nat.le_refl _) (waits_inside _ waits)

/-- Every mutex is taken by some call. -/
theorem code_uses (b : Build) (onData : δ → Code) (m : Mutex) :
    ∃ f : Call δ, .lock m ∈ f.code b onData := by
  cases m with
  | schedulerMtx => exact ⟨.schedulerShutdown, List.mem_cons_self⟩
  | criticalErrorMtx => exact ⟨.addSchedulerCriticalError true none, List.mem_cons_self⟩
  | gatewayDFlushMutex => exact ⟨.announce (some ⟨true, false⟩), List.mem_cons_self⟩
  | errorFileMtx =>
    refine ⟨.consumerPass 0 [some true], ?_⟩
    show _ ∈ [LockOp.lock Mutex.criticalErrorMtx, .unlock .criticalErrorMtx, .lock .errorFileMtx,
      .unlock .errorFileMtx, .lock .criticalErrorMtx, .unlock .criticalErrorMtx]
    decide
  | logMtx => exact ⟨.pluginLog, List.mem_cons_self⟩

theorem rank_le (m : Mutex) : m.rank ≤ 2 := by
  cases m <;> decide

/-! ## Result -/

/-- **No call blocks for good.** Any number of threads call the functions in any order, and crash
anywhere. If `on_data` takes no mutex of the daemon but `g_log_mtx`: after a run all calls can come to
their end, whatever is called next, if and only if no crash of the run happened with a mutex held. -/
theorem calls_finish_iff {n : Nat} (b : Build) (onData : δ → Code) (h : ∀ d, Ranked 2 (onData d))
    (as : List (Label (Fin n) (Call δ))) (s : State (Fin n) Mutex)
    (hr : (system (Call.code b onData)).run as init = some s) :
    (system (Call.code b onData)).Meets Clean as init ↔
      ∀ bs t, (∀ a ∈ bs, a.NoJump) → (system (Call.code b onData)).run bs s = some t →
        Finishes (Call.code b onData) t :=
  finishes_iff (fun f => (code_nested b h f).held) (code_uses b onData) rank_le hr

/-- A release build, with an `on_data` that takes no mutex. -/
def releaseCode : Call Unit → Code := Call.code ⟨false, true, true⟩ fun _ => []

/-- A callback crashes in `vfprintf` of `plugin_log_internal`, which holds `g_log_mtx`. -/
def crashInLog : List (Label (Fin 2) (Call Unit)) :=
  [.call 0 .pluginLog, .act 0, .jump 0 (.addEventBusCriticalError true none)]

/-- The callback crashes before the lock. -/
def crashBeforeLog : List (Label (Fin 2) (Call Unit)) :=
  [.call 0 .pluginLog, .jump 0 (.addEventBusCriticalError true none)]

/-- After the crash in `vfprintf` some call never comes to its end; the one before does no harm. -/
theorem calls_finish_iff_crashInLog :
    (∃ s, (system releaseCode).run crashInLog init = some s ∧
      ∃ bs t, (∀ a ∈ bs, a.NoJump) ∧ (system releaseCode).run bs s = some t ∧
        ¬ Finishes releaseCode t) ∧
    ∃ s, (system releaseCode).run crashBeforeLog init = some s ∧ Finishes releaseCode s := by
  have hnone : ∀ _ : Unit, Ranked 2 [] := fun _ => Nested.nil _
  constructor
  · obtain ⟨s, hs⟩ : ∃ s, (system releaseCode).run crashInLog init = some s := ⟨_, rfl⟩
    refine ⟨s, hs, ?_⟩
    by_contra hno
    have hm := (calls_finish_iff _ _ hnone crashInLog s hs).mpr fun bs t hbs ht => by
      by_contra hfin
      exact hno ⟨bs, t, hbs, ht, hfin⟩
    exact ((hm.2 _ rfl).2 _ rfl).1 .logMtx rfl
  · obtain ⟨s, hs⟩ : ∃ s, (system releaseCode).run crashBeforeLog init = some s := ⟨_, rfl⟩
    refine ⟨s, hs, (calls_finish_iff _ _ hnone _ s hs).mp ⟨trivial, fun t ht => ?_⟩ [] s nofun rfl⟩
    cases ht
    exact ⟨fun l => nofun, fun _ _ => trivial⟩

end Mutexes
end CoreCDTL
