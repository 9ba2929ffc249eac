import CoreCDTL.Gateway.Lib
import CoreCDTL.Lib.Machine
import Mathlib.Data.List.Induction

/-!
# The gateway library: the order of its callbacks

A library expects its functions to be called in cycles: `init`, any number of times `start` and
`stop`, then `close`. The five operations of `gateway.c` guard on `g_gateway_connected_flag` and
`gateway_is_alive` in different combinations.

* **The protocol.** `Cycles`: a trace is the beginning of some cycles, each of one library.
  `Phase` is where such a trace stands; `cycles_iff_phase`: the traces with a phase are these.
* **The code.** `gateway`: the machine of the five operations from program start.
* `Situation`: the flags, the function pointers and the phase agree in one of four ways.
  `protocol_iff`: a sequence of calls keeps to the protocol exactly as long as no call is `Adrift`.
-/

namespace CoreCDTL
namespace Gateway

/-! ## The protocol -/

/-- `n` times `start` and `stop`. -/
def pairs (lib : Nat) : Nat → List Callback
  | 0 => []
  | n + 1 => pairs lib n ++ [.start lib, .stop lib]

/-- One cycle of a library. -/
def cycle (c : Nat × Nat) : List Callback := .init c.1 :: (pairs c.1 c.2 ++ [.close c.1])

/-- The trace is the beginning of some cycles. -/
def Cycles (trace : List Callback) : Prop := ∃ cs : List (Nat × Nat), trace <+: cs.flatMap cycle

/-- Where a trace stands. -/
inductive Phase where
  | idle
  | opened (lib : Nat)
  | started (lib : Nat)
  deriving DecidableEq, Repr

/-- The phase after a callback, if the callback may come there. -/
def Phase.next : Phase → Callback → Option Phase
  | .idle, .init lib => some (.opened lib)
  | .opened l, .start lib => if lib = l then some (.started l) else none
  | .opened l, .close lib => if lib = l then some .idle else none
  | .started l, .stop lib => if lib = l then some (.opened l) else none
  | _, _ => none

/-- The phase of a trace. -/
def phaseOf (trace : List Callback) : Option Phase := trace.foldlM Phase.next .idle

theorem phaseOf_concat (trace : List Callback) (c : Callback) :
    phaseOf (trace ++ [c]) = (phaseOf trace).bind fun p => p.next c := by
  unfold phaseOf
  rw [List.foldlM_append]
  cases List.foldlM Phase.next Phase.idle trace with
  | none => rfl
  | some p => cases h : p.next c <;> simp [h]

/-- The traces that stand in a phase. -/
def Phase.Traces : Phase → List Callback → Prop
  | .idle, t => ∃ cs : List (Nat × Nat), t = cs.flatMap cycle
  | .opened l, t => ∃ (cs : List (Nat × Nat)) (n : Nat),
      t = cs.flatMap cycle ++ .init l :: pairs l n
  | .started l, t => ∃ (cs : List (Nat × Nat)) (n : Nat),
      t = cs.flatMap cycle ++ .init l :: (pairs l n ++ [.start l])

theorem Phase.Traces.next {p q : Phase} {t : List Callback} {c : Callback} (h : p.Traces t)
    (hn : p.next c = some q) : q.Traces (t ++ [c]) := by
  cases p with
  | idle =>
    cases c with
    | init lib =>
      cases hn
      obtain ⟨cs, rfl⟩ := h
      exact ⟨cs, 0, rfl⟩
    | _ => cases hn
  | opened l =>
    obtain ⟨cs, n, rfl⟩ := h
    cases c with
    | start lib =>
      obtain ⟨rfl, hq⟩ := Option.ite_none_right_eq_some.mp hn
      cases hq
      exact ⟨cs, n, by simp⟩
    | close lib =>
      obtain ⟨rfl, hq⟩ := Option.ite_none_right_eq_some.mp hn
      cases hq
      exact ⟨cs ++ [(lib, n)], by simp [cycle]⟩
    | _ => cases hn
  | started l =>
    obtain ⟨cs, n, rfl⟩ := h
    cases c with
    | stop lib =>
      obtain ⟨rfl, hq⟩ := Option.ite_none_right_eq_some.mp hn
      cases hq
      exact ⟨cs, n + 1, by simp [pairs]⟩
    | _ => cases hn

theorem traces_of_phaseOf {t : List Callback} {p : Phase} (h : phaseOf t = some p) :
    p.Traces t := by
  induction t using List.reverseRecOn generalizing p with
  | nil =>
    cases h
    exact ⟨[], rfl⟩
  | append_singleton t c ih =>
    rw [phaseOf_concat] at h
    obtain ⟨q, hq, hn⟩ := Option.bind_eq_some_iff.mp h
    exact (ih hq).next hn

theorem Phase.Traces.cycles {p : Phase} {t : List Callback} (h : p.Traces t) : Cycles t := by
  cases p with
  | idle =>
    obtain ⟨cs, rfl⟩ := h
    exact ⟨cs, List.prefix_refl _⟩
  | opened l =>
    obtain ⟨cs, n, rfl⟩ := h
    exact ⟨cs ++ [(l, n)], [.close l], by simp [cycle]⟩
  | started l =>
    obtain ⟨cs, n, rfl⟩ := h
    exact ⟨cs ++ [(l, n + 1)], [.stop l, .close l], by simp [cycle, pairs]⟩

theorem foldlM_pairs (l n : Nat) : (pairs l n).foldlM Phase.next (.opened l) = some (.opened l) := by
  induction n with
  | zero => rfl
  | succ n ih =>
    rw [pairs, List.foldlM_append, ih]
    simp [Phase.next]

theorem foldlM_cycles (cs : List (Nat × Nat)) :
    (cs.flatMap cycle).foldlM Phase.next .idle = some .idle := by
  induction cs with
  | nil => rfl
  | cons c cs ih =>
    have hcycle : (cycle c).foldlM Phase.next .idle = some .idle := by
      unfold cycle
      rw [List.foldlM_cons]
      show ((pairs c.1 c.2 ++ [Callback.close c.1]).foldlM Phase.next (.opened c.1)) = _
      rw [List.foldlM_append, foldlM_pairs]
      simp [Phase.next]
    rw [List.flatMap_cons, List.foldlM_append, hcycle]
    exact ih

/-- **The protocol as an automaton.** The beginnings of cycles are the traces with a phase. -/
theorem cycles_iff_phase (t : List Callback) : Cycles t ↔ (phaseOf t).isSome := by
  constructor
  · rintro ⟨cs, rest, h⟩
    have hall := foldlM_cycles cs
    rw [← h, List.foldlM_append] at hall
    obtain ⟨p, hp, -⟩ := Option.bind_eq_some_iff.mp hall
    unfold phaseOf
    rw [hp]
    rfl
  · intro h
    obtain ⟨p, hp⟩ := Option.isSome_iff_exists.mp h
    exact (traces_of_phaseOf hp).cycles

/-! ## The code -/

/-- The operations of `gateway.c`. -/
inductive Op where
  | init (l : Load)
  | start
  | stop
  | restart
  | close
  deriving DecidableEq, Repr

/-- The gateway, with the number of dispatcher threads that were created and not joined; each of
them has its arena. -/
structure Gw where
  lib : State
  dispatchers : Nat
  deriving DecidableEq, Repr

/-- At program start. -/
def Gw.zero : Gw := ⟨State.zero, 0⟩

/-- A call of an operation, unless it calls through NULL. -/
def step (a : Op) (s : Gw) : Option Gw :=
  match a with
  | .init l => (gatewayInitLib l s.lib).map fun r =>
      ⟨r.2, if r.1 = GATEWAY_OK then s.dispatchers + 1 else s.dispatchers⟩
  | .start => (gatewayStartLib s.lib).map fun g => ⟨g, s.dispatchers⟩
  | .stop => (gatewayStopLib s.lib).map fun g => ⟨g, s.dispatchers⟩
  | .restart => (gatewayRestartLib s.lib).map fun g => ⟨g, s.dispatchers⟩
  | .close => (gatewayCloseLib s.lib).map fun g =>
      ⟨g, if s.lib.connected then s.dispatchers - 1 else s.dispatchers⟩

/-- The gateway as a machine. -/
def gateway : Machine Gw Op := ⟨step⟩

/-- A load that fails after `dlopen` may leave pointers of the library that it has closed again. -/
structure Reloaded (g g' : State) : Prop where
  connected : g'.connected = g.connected
  isAlive : g'.isAlive = g.isAlive
  running : g'.dispatcherRunning = g.dispatcherRunning
  onDataCb : g'.onDataCb = g.onDataCb
  trace : g'.trace = g.trace
  loads : g.loads ≤ g'.loads
  fns : (g'.startFn = g.startFn ∧ g'.stopFn = g.stopFn ∧ g'.closeFn = g.closeFn) ∨
    (g'.startFn = none ∨ g'.startFn = some g.loads)

/-- After a load that succeeds. -/
def opened (g : State) : State where
  connected := true
  isAlive := false
  initFn := some g.loads
  startFn := some g.loads
  stopFn := some g.loads
  onDataFn := some g.loads
  closeFn := some g.loads
  dispatcherRunning := true
  onDataCb := some g.loads
  loads := g.loads + 1
  trace := g.trace ++ [.init g.loads]

/-- `gateway_init_lib` of a library that is not running. -/
theorem gatewayInitLib_moves {g : State} (l : Load) (ha : g.isAlive = false) :
    (l = .ok ∧ gatewayInitLib l g = some (GATEWAY_OK, opened g)) ∨
      (l ≠ .ok ∧ ∃ status g', gatewayInitLib l g = some (status, g') ∧ status ≠ GATEWAY_OK ∧
        status ≠ GATEWAY_ALREADY_INITIALIZED ∧ Reloaded g g') := by
  have same : Reloaded g g := ⟨rfl, rfl, rfl, rfl, rfl, Nat.le_refl _, .inl ⟨rfl, rfl, rfl⟩⟩
  obtain ⟨file, dl, init, start, stop, close, onData⟩ := l
  unfold gatewayInitLib
  rw [if_neg (by simp [ha])]
  cases file
  · exact .inr ⟨by simp [Load.ok], _, _, rfl, by decide, by decide, same⟩
  cases dl
  · exact .inr ⟨by simp [Load.ok], _, _, rfl, by decide, by decide, same⟩
  cases init
  · exact .inr ⟨by simp [Load.ok], _, _, rfl, by decide, by decide,
      ⟨rfl, rfl, rfl, rfl, rfl, Nat.le_succ _, .inl ⟨rfl, rfl, rfl⟩⟩⟩
  cases start
  · exact .inr ⟨by simp [Load.ok], _, _, rfl, by decide, by decide,
      ⟨rfl, rfl, rfl, rfl, rfl, Nat.le_succ _, .inr (.inl rfl)⟩⟩
  cases stop
  · exact .inr ⟨by simp [Load.ok], _, _, rfl, by decide, by decide,
      ⟨rfl, rfl, rfl, rfl, rfl, Nat.le_succ _, .inr (.inr rfl)⟩⟩
  cases close
  · exact .inr ⟨by simp [Load.ok], _, _, rfl, by decide, by decide,
      ⟨rfl, rfl, rfl, rfl, rfl, Nat.le_succ _, .inr (.inr rfl)⟩⟩
  cases onData
  · exact .inr ⟨by simp [Load.ok], _, _, rfl, by decide, by decide,
      ⟨rfl, rfl, rfl, rfl, rfl, Nat.le_succ _, .inr (.inr rfl)⟩⟩
  · refine .inl ⟨rfl, ?_⟩
    have hopen : opened g = { opened g with isAlive := g.isAlive } := by rw [ha]; rfl
    rw [hopen]
    rfl

/-- The state after callbacks. -/
def State.after (g : State) (cs : List Callback) : State := { g with trace := g.trace ++ cs }

theorem gatewayStartLib_call {g : State} {lib : Nat} (connected : g.connected = true)
    (alive : g.isAlive = false) (h : g.startFn = some lib) :
    gatewayStartLib g = some { g.after [.start lib] with isAlive := true } := by
  simp [gatewayStartLib, State.call, State.after, connected, alive, h]

theorem gatewayStopLib_call {g : State} {lib : Nat} (connected : g.connected = true)
    (alive : g.isAlive = true) (h : g.stopFn = some lib) :
    gatewayStopLib g = some { g.after [.stop lib] with connected := false } := by
  simp [gatewayStopLib, State.call, State.after, connected, alive, h]

theorem gatewayRestartLib_call {g : State} {a b : Nat} (connected : g.connected = true)
    (hstop : g.stopFn = some a) (hstart : g.startFn = some b) :
    gatewayRestartLib g = some (g.after [.stop a, .start b]) := by
  simp [gatewayRestartLib, State.call, State.after, connected, hstop, hstart]

theorem gatewayCloseLib_idle {g : State} {lib : Nat} (connected : g.connected = true)
    (alive : g.isAlive = false) (h : g.closeFn = some lib) :
    gatewayCloseLib g = some (gatewayClear (g.after [.close lib])) := by
  simp [gatewayCloseLib, gatewayClear, gatewayDispatcherClose, State.call, State.after, connected,
    alive, h]

theorem gatewayCloseLib_running {g : State} {a b : Nat} (connected : g.connected = true)
    (alive : g.isAlive = true) (hstop : g.stopFn = some a) (hclose : g.closeFn = some b) :
    gatewayCloseLib g = some (gatewayClear (g.after [.stop a, .close b])) := by
  simp [gatewayCloseLib, gatewayClear, gatewayDispatcherClose, State.call, State.after, connected,
    alive, hstop, hclose]

/-! ## Every call -/

/-- The trace is the beginning of cycles, and there is at most one dispatcher. -/
def InProtocol (s : Gw) : Prop := Cycles s.lib.trace ∧ s.dispatchers ≤ 1

/-- How the flags, the function pointers and the phase go together. -/
inductive Situation (s : Gw) : Prop where
  | closed (connected : s.lib.connected = false) (alive : s.lib.isAlive = false)
    (phase : phaseOf s.lib.trace = some .idle) (count : s.dispatchers = 0)
  | opened (lib : Nat) (connected : s.lib.connected = true) (alive : s.lib.isAlive = false)
    (phase : phaseOf s.lib.trace = some (.opened lib)) (count : s.dispatchers = 1)
    (old : lib < s.lib.loads)
    (fns : s.lib.startFn = some lib → s.lib.stopFn = some lib ∧ s.lib.closeFn = some lib)
  | started (lib : Nat) (connected : s.lib.connected = true) (alive : s.lib.isAlive = true)
    (phase : phaseOf s.lib.trace = some (.started lib)) (count : s.dispatchers = 1)
    (start : s.lib.startFn = some lib) (stop : s.lib.stopFn = some lib)
    (close : s.lib.closeFn = some lib)
  /-- After `gateway_stop_lib` no operation does anything any more. -/
  | stopped (lib : Nat) (connected : s.lib.connected = false) (alive : s.lib.isAlive = true)
    (phase : phaseOf s.lib.trace = some (.opened lib)) (count : s.dispatchers = 1)

theorem Situation.inProtocol {s : Gw} (h : Situation s) : InProtocol s := by
  unfold InProtocol
  rw [cycles_iff_phase]
  cases h with
  | closed _ _ phase count => rw [phase, count]; exact ⟨rfl, Nat.zero_le 1⟩
  | opened _ _ _ phase count => rw [phase, count]; exact ⟨rfl, Nat.le_refl 1⟩
  | started _ _ _ phase count => rw [phase, count]; exact ⟨rfl, Nat.le_refl 1⟩
  | stopped _ _ _ phase count => rw [phase, count]; exact ⟨rfl, Nat.le_refl 1⟩

/-- The calls that leave the protocol, all of them with a library that is initialised and not
started: another one is loaded, it is restarted, or its `start` or `close` is called through a
pointer that a failed load has replaced. -/
def Adrift (s : Gw) (a : Op) : Prop :=
  s.lib.connected = true ∧ s.lib.isAlive = false ∧
    match a with
    | .init l => l = .ok
    | .start => ∀ lib, phaseOf s.lib.trace = some (.opened lib) → s.lib.startFn ≠ some lib
    | .stop => False
    | .restart => True
    | .close => ∀ lib, phaseOf s.lib.trace = some (.opened lib) → s.lib.closeFn ≠ some lib

/-- A callback that may not come in its phase ends the protocol for good. -/
theorem not_inProtocol {s : Gw} {t : List Callback} {p : Phase} {c : Callback}
    (rest : List Callback) (h : phaseOf t = some p) (hc : p.next c = none)
    (ht : s.lib.trace = t ++ c :: rest) : ¬ InProtocol s := by
  rintro ⟨hp, -⟩
  rw [cycles_iff_phase, ht] at hp
  unfold phaseOf at h hp
  rw [List.foldlM_append, h] at hp
  simp [hc] at hp

section Calls

variable {s : Gw}

/-- `gateway_init_lib` refuses while a library runs. -/
theorem step_init_alive (alive : s.lib.isAlive = true) (l : Load) : step (.init l) s = some s := by
  simp [step, gatewayInitLib, alive, GATEWAY_ALREADY_INITIALIZED, GATEWAY_OK]

/-- A load that fails. -/
theorem step_init_failed {l : Load} {status : Int} {g : State}
    (h : gatewayInitLib l s.lib = some (status, g)) (hne : status ≠ GATEWAY_OK) :
    step (.init l) s = some ⟨g, s.dispatchers⟩ := by
  simp only [step, h, Option.map_some, if_neg hne]

/-- A load that succeeds. -/
theorem step_init_ok {l : Load} (h : gatewayInitLib l s.lib = some (GATEWAY_OK, opened s.lib)) :
    step (.init l) s = some ⟨opened s.lib, s.dispatchers + 1⟩ := by
  simp only [step, h, Option.map_some, if_pos]

/-- Without a connection only a load does anything. -/
theorem step_disconnected (h : s.lib.connected = false) {a : Op} (ha : ∀ l, a ≠ .init l) :
    step a s = some s := by
  cases a with
  | init l => exact absurd rfl (ha l)
  | start => simp [step, gatewayStartLib, h]
  | stop => simp [step, gatewayStopLib, h]
  | restart => simp [step, gatewayRestartLib, h]
  | close => simp [step, gatewayCloseLib, h]

/-- A callback that may come in its phase. -/
theorem phaseOf_next {t : List Callback} {p q : Phase} {c : Callback} (h : phaseOf t = some p)
    (hc : p.next c = some q) : phaseOf (t ++ [c]) = some q := by
  rw [phaseOf_concat, h]
  exact hc

theorem Situation.step_closed {a : Op} (connected : s.lib.connected = false)
    (alive : s.lib.isAlive = false) (phase : phaseOf s.lib.trace = some .idle)
    (count : s.dispatchers = 0) : ∃ s', step a s = some s' ∧ Situation s' := by
  have same : Situation s := .closed connected alive phase count
  cases a with
  | init l =>
    rcases gatewayInitLib_moves l alive with ⟨-, he⟩ | ⟨-, status, g', he, hne, -, hr⟩
    · exact ⟨_, step_init_ok he, .opened s.lib.loads rfl rfl (phaseOf_next phase rfl)
        (by rw [count]) (Nat.lt_succ_self _) fun _ => ⟨rfl, rfl⟩⟩
    · exact ⟨_, step_init_failed he hne, .closed (hr.connected.trans connected)
        (hr.isAlive.trans alive) (by rw [hr.trace, phase]) count⟩
  | _ => exact ⟨s, step_disconnected connected (fun l => Op.noConfusion), same⟩

theorem Situation.step_opened {a : Op} {lib : Nat} (connected : s.lib.connected = true)
    (alive : s.lib.isAlive = false) (phase : phaseOf s.lib.trace = some (.opened lib))
    (count : s.dispatchers = 1) (old : lib < s.lib.loads)
    (fns : s.lib.startFn = some lib → s.lib.stopFn = some lib ∧ s.lib.closeFn = some lib)
    (ha : ¬ Adrift s a) : ∃ s', step a s = some s' ∧ Situation s' := by
  have inLib : ∀ fn : Option Nat, ¬ (∀ l, phaseOf s.lib.trace = some (.opened l) → fn ≠ some l) →
      fn = some lib := by
    intro fn h
    by_contra hn
    refine h fun l hl => ?_
    rw [phase] at hl
    cases hl
    exact hn
  cases a with
  | init l =>
    rcases gatewayInitLib_moves l alive with ⟨rfl, -⟩ | ⟨-, status, g', he, hne, -, hr⟩
    · exact absurd ⟨connected, alive, rfl⟩ ha
    · refine ⟨_, step_init_failed he hne, .opened lib (hr.connected.trans connected)
        (hr.isAlive.trans alive) (by rw [hr.trace, phase]) count
        (Nat.lt_of_lt_of_le old hr.loads) fun hs => ?_⟩
      rcases hr.fns with ⟨h₁, h₂, h₃⟩ | h | h
      · rw [h₂, h₃]
        exact fns (h₁ ▸ hs)
      · rw [h] at hs
        cases hs
      · rw [h] at hs
        exact absurd (Option.some.inj hs) (Nat.ne_of_gt old)
  | start =>
    have hs := inLib s.lib.startFn fun h => ha ⟨connected, alive, h⟩
    obtain ⟨h₁, h₂⟩ := fns hs
    refine ⟨_, by rw [Gateway.step, gatewayStartLib_call connected alive hs]; rfl, ?_⟩
    exact .started lib connected rfl (phaseOf_next phase (if_pos rfl)) count hs h₁ h₂
  | stop =>
    exact ⟨s, by simp [step, gatewayStopLib, alive],
      .opened lib connected alive phase count old fns⟩
  | restart => exact absurd ⟨connected, alive, trivial⟩ ha
  | close =>
    have hc := inLib s.lib.closeFn fun h => ha ⟨connected, alive, h⟩
    refine ⟨_, by rw [Gateway.step, gatewayCloseLib_idle connected alive hc]; rfl, ?_⟩
    exact .closed rfl rfl (phaseOf_next phase (if_pos rfl)) (by simp [connected, count])

theorem Situation.step_started {a : Op} {lib : Nat} (connected : s.lib.connected = true)
    (alive : s.lib.isAlive = true) (phase : phaseOf s.lib.trace = some (.started lib))
    (count : s.dispatchers = 1) (start : s.lib.startFn = some lib)
    (stop : s.lib.stopFn = some lib) (close : s.lib.closeFn = some lib) :
    ∃ s', step a s = some s' ∧ Situation s' := by
  have stopped : phaseOf (s.lib.trace ++ [.stop lib]) = some (.opened lib) :=
    phaseOf_next phase (if_pos rfl)
  have same : Situation s := .started lib connected alive phase count start stop close
  cases a with
  | init l => exact ⟨s, step_init_alive alive l, same⟩
  | start => exact ⟨s, by simp [step, gatewayStartLib, alive], same⟩
  | stop =>
    refine ⟨_, by rw [Gateway.step, gatewayStopLib_call connected alive stop]; rfl, ?_⟩
    exact .stopped lib rfl alive stopped count
  | restart =>
    refine ⟨_, by rw [Gateway.step, gatewayRestartLib_call connected stop start]; rfl, ?_⟩
    have again := phaseOf_next (c := .start lib) stopped (if_pos rfl)
    rw [List.append_assoc] at again
    exact .started lib connected alive again count start stop close
  | close =>
    refine ⟨_, by rw [Gateway.step, gatewayCloseLib_running connected alive stop close]; rfl, ?_⟩
    have last := phaseOf_next (c := .close lib) stopped (if_pos rfl)
    rw [List.append_assoc] at last
    exact .closed rfl rfl last (by simp [connected, count])

/-- A call that is not adrift goes through and keeps to the protocol. -/
theorem Situation.step {a : Op} (h : Situation s) (ha : ¬ Adrift s a) :
    ∃ s', Gateway.step a s = some s' ∧ Situation s' := by
  cases h with
  | closed connected alive phase count => exact step_closed connected alive phase count
  | opened lib connected alive phase count old fns =>
    exact step_opened connected alive phase count old fns ha
  | started lib connected alive phase count start stop close =>
    exact step_started connected alive phase count start stop close
  | stopped lib connected alive phase count =>
    have same : Situation s := .stopped lib connected alive phase count
    cases a with
    | init l => exact ⟨s, step_init_alive alive l, same⟩
    | _ => exact ⟨s, step_disconnected connected (fun l => Op.noConfusion), same⟩

/-- A call that is adrift does not go through, or leaves the protocol. -/
theorem Situation.adrift {a : Op} {s' : Gw} (h : Situation s) (ha : Adrift s a)
    (hs : Gateway.step a s = some s') : ¬ InProtocol s' := by
  obtain ⟨connected, alive, ha⟩ := ha
  cases h with
  | closed hc => rw [hc] at connected; cases connected
  | started _ _ halive => rw [halive] at alive; cases alive
  | stopped _ hc => rw [hc] at connected; cases connected
  | opened lib _ _ phase count =>
    -- A start or close of another library, if not of none.
    have other : ∀ fn : Option Nat,
        (∀ l, phaseOf s.lib.trace = some (.opened l) → fn ≠ some l) → ∀ k, fn = some k → k ≠ lib := by
      rintro fn h k hk rfl
      exact h k phase hk
    cases a with
    | init l =>
      obtain rfl : l = .ok := ha
      rcases gatewayInitLib_moves .ok alive with ⟨-, he⟩ | ⟨hne, -⟩
      · rw [step_init_ok he] at hs
        cases hs
        exact not_inProtocol [] phase rfl rfl
      · exact absurd rfl hne
    | start =>
      cases hfn : s.lib.startFn with
      | none => simp [Gateway.step, gatewayStartLib, connected, alive, State.call, hfn] at hs
      | some k =>
        have hk := other s.lib.startFn ha k hfn
        have hnext : (Phase.opened lib).next (.start k) = none := if_neg hk
        rw [Gateway.step, gatewayStartLib_call connected alive hfn] at hs
        cases hs
        exact not_inProtocol [] phase hnext rfl
    | stop => exact ha.elim
    | restart =>
      cases hstop : s.lib.stopFn with
      | none => simp [Gateway.step, gatewayRestartLib, connected, State.call, hstop] at hs
      | some k =>
        cases hstart : s.lib.startFn with
        | none => simp [Gateway.step, gatewayRestartLib, connected, State.call, hstop, hstart] at hs
        | some k' =>
          rw [Gateway.step, gatewayRestartLib_call connected hstop hstart] at hs
          cases hs
          exact not_inProtocol [.start k'] phase rfl rfl
    | close =>
      cases hfn : s.lib.closeFn with
      | none => simp [Gateway.step, gatewayCloseLib, connected, alive, State.call, hfn] at hs
      | some k =>
        have hk := other s.lib.closeFn ha k hfn
        have hnext : (Phase.opened lib).next (.close k) = none := if_neg hk
        rw [Gateway.step, gatewayCloseLib_idle connected alive hfn] at hs
        cases hs
        exact not_inProtocol [] phase hnext rfl

end Calls

theorem situation_keeps : gateway.Keeps (fun s a => ¬ Adrift s a) Situation := by
  intro s a s' hs hok h
  obtain ⟨t, ht, hsit⟩ := hs.step hok
  rw [show gateway.step a s = Gateway.step a s from rfl, ht] at h
  cases h
  exact hsit

/-- **The callback protocol.** For every sequence of calls from program start: all its calls go
through without a call of NULL, the trace is after each of them the beginning of cycles of `init`,
pairs of `start` and `stop`, and `close`, and there is at most one dispatcher, if and only if no
call is adrift. -/
theorem protocol_iff (ops : List Op) :
    (∀ bs, bs <+: ops → ∃ s, gateway.run bs Gw.zero = some s ∧ InProtocol s) ↔
      gateway.Meets (fun s a => ¬ Adrift s a) ops Gw.zero := by
  have hzero : Situation Gw.zero := .closed rfl rfl rfl rfl
  refine Machine.runs_iff_meets situation_keeps (fun s a hs => ?_) hzero hzero.inProtocol
  constructor
  · rintro ⟨s', hstep, hin⟩ ha
    exact hs.adrift ha hstep hin
  · intro ha
    obtain ⟨s', hstep, hsit⟩ := hs.step ha
    exact ⟨s', hstep, hsit.inProtocol⟩

/-- **Two libraries at once.** Loading a second library after the first one is initialised calls
its `init` without a `close` of the first, and a second dispatcher runs. -/
theorem second_init :
    ∃ s, gateway.run [.init .ok, .init .ok] Gw.zero = some s ∧
      s.lib.trace = [.init 0, .init 1] ∧ s.dispatchers = 2 ∧ ¬ Cycles s.lib.trace :=
  ⟨_, rfl, rfl, rfl, by rw [cycles_iff_phase]; decide⟩

end Gateway
end CoreCDTL
