import CoreCDTL.Plugin.Lifecycle

/-!
# What the results of the lifecycle operations say

`plugin_initialize`, `plugin_start`, `plugin_stop` and `plugin_shutdown` return a
`plugin_op_result_t`. A result tells the truth (`Tells`) if success means that the plugin is in the
state that the operation is for, any other result that no plugin changed its state, and no result
that another plugin did.

* `LifeOp.handle_tells`: one operation on the handle, one case for each guard.
* `result_codes_iff`: in every table that a run reaches, the result tells the truth unless it is that
  of `plugin_start` for a plugin that is not alive and has no start function.
-/

namespace CoreCDTL
namespace Plugin

/-- A lifecycle operation, with what the plugin's function returns. -/
inductive LifeOp where
  | initializeP (ret : Int)
  | start (ret : Int)
  | stop
  | shutdown

namespace LifeOp

/-- The call of the operation for a plugin id. -/
def call : LifeOp → Nat → State → Option (OpResult × State)
  | initializeP ret => pluginInitialize ret
  | start ret => pluginStart ret
  | stop => pluginStop
  | shutdown => pluginShutdown

/-- The operation on the handle. -/
def handle : LifeOp → Operation OpResult
  | initializeP ret => initializeHandle ret
  | start ret => startHandle ret
  | stop => stopHandle
  | shutdown => shutdownHandle

theorem call_eq (op : LifeOp) : op.call = onPlugin .invalidId .notFound op.handle := by
  cases op <;> rfl

/-- The state that the operation is for. -/
def target : LifeOp → PluginState
  | initializeP _ | start _ => .alive
  | stop => .stopped
  | shutdown => .killed

/-- The operation is `plugin_start`, and the plugin is not alive and has no start function. -/
def Idles (op : LifeOp) (h : Handle) : Prop :=
  (∃ ret, op = start ret) ∧ h.state ≠ .alive ∧ h.funcs.startFn = none

/-- **One operation on its handle.** -/
theorem handle_tells (op : LifeOp) (h : Handle) :
    (((op.handle h).1 = .success → (op.handle h).2.1.state = op.target) ∧
      ((op.handle h).1 ≠ .success → (op.handle h).2.1.state = h.state)) ↔ ¬ op.Idles h := by
  have other : (∀ ret, op ≠ start ret) → ¬ op.Idles h := fun hne hi => hi.1.elim hne
  cases op with
  | initializeP ret =>
    refine iff_of_true ?_ (other fun _ he => by cases he)
    simp only [handle, target, initializeHandle]
    split
    · simp
    split
    · simp
    split <;> simp
  | start ret =>
    simp only [handle, target, startHandle]
    by_cases hst : h.state = .alive
    · rw [if_pos hst]
      exact iff_of_true (by simp) fun hi => hi.2.1 hst
    rw [if_neg hst]
    by_cases hfn : h.funcs.startFn = none
    · -- The early return: success, with the state as it was.
      rw [if_pos hfn]
      exact iff_of_false (fun htells => hst (htells.1 rfl)) fun hn => hn ⟨⟨ret, rfl⟩, hst, hfn⟩
    rw [if_neg hfn]
    refine iff_of_true ?_ fun hi => hfn hi.2.2
    split <;> simp
  | stop =>
    refine iff_of_true ?_ (other fun _ he => by cases he)
    simp only [handle, target, stopHandle]
    split
    · simp
    split <;> simp
  | shutdown =>
    refine iff_of_true ?_ (other fun _ he => by cases he)
    simp only [handle, target, shutdownHandle]
    split <;> simp

end LifeOp

/-- The state of the plugin in a slot. -/
def State.stateOf (s : State) (i : Nat) : Option PluginState := (s.slot i).map (·.state)

theorem stateOf_set {s : State} {i : Nat} {k : Handle} (hslot : s.slot i = some k) (k' : Handle)
    (cs : List Call) (j : Nat) :
    ({ s with plugins := s.plugins.map (·.set i k'), calls := cs } : State).stateOf j =
      if j = i then some k'.state else s.stateOf j := by
  unfold State.stateOf
  unfold State.slot at hslot ⊢
  rw [slot_set, hslot]
  split <;> rfl

/-- The result `r` of an operation for the plugin with an id tells the truth. -/
structure Tells (op : LifeOp) (id : Nat) (s : State) (r : OpResult) (s' : State) : Prop where
  success : r = .success → id ≠ PLUGIN_ID_INVALID ∧ s'.stateOf (id - 1) = some op.target
  failure : r ≠ .success → ∀ i, s'.stateOf i = s.stateOf i
  others : ∀ i, id ≠ i + 1 → s'.stateOf i = s.stateOf i

/-- **When the result codes mean what they say.** For every table that loading and any steps after
it reach, every id and whatever the plugin's functions return: the result of a lifecycle operation
tells the truth if and only if it is not that of `plugin_start` for a plugin that is not alive and
has no start function. -/
theorem result_codes_iff {hk : HeapKit.State} {es : List Entry} {s₀ s s' : State} {as : List Act}
    {op : LifeOp} {id : Nat} {r : OpResult} (hload : loading.run es (State.init hk) = some s₀)
    (hrun : manager.run as s₀ = some s) (hcall : op.call id s = some (r, s')) :
    Tells op id s r s' ↔
      ¬ (id ≠ PLUGIN_ID_INVALID ∧ ∃ h, s.slot (id - 1) = some h ∧ op.Idles h) := by
  have hs : Table s := Table.keeps.run_all (loaded_of_run hload).toTable hrun
  rw [op.call_eq] at hcall
  rcases onPlugin_some hcall with ⟨rfl, hr, hid⟩ | ⟨i, k, rfl, -, hslot, rfl, rfl⟩
  · -- There is no such plugin.
    refine iff_of_true ⟨fun h => ?_, fun _ _ => rfl, fun _ _ => rfl⟩ ?_
    · rcases hr with hr | hr <;> cases hr.symm.trans h
    · rintro ⟨hne, h, hslot, -⟩
      have hlt := hs.slot_lt hslot
      have hpos : 0 < id := Nat.pos_of_ne_zero hne
      exact hid (id - 1) hlt (by omega)
  · have hslots := stateOf_set hslot (op.handle k).2.1 (s.calls ++ (op.handle k).2.2)
    have hk : s.stateOf i = some k.state := by
      unfold State.stateOf
      rw [hslot]
      rfl
    have hidle : (i + 1 ≠ PLUGIN_ID_INVALID ∧ ∃ h, s.slot (i + 1 - 1) = some h ∧ op.Idles h) ↔
        op.Idles k := by
      rw [Nat.add_sub_cancel, hslot]
      constructor
      · rintro ⟨-, h, hh, hi⟩
        cases hh
        exact hi
      · exact fun hi => ⟨Nat.succ_ne_zero i, k, rfl, hi⟩
    rw [hidle, ← op.handle_tells k]
    constructor
    · intro htells
      refine ⟨fun hr => ?_, fun hr => ?_⟩
      · have := (htells.success hr).2
        rw [Nat.add_sub_cancel, hslots, if_pos rfl] at this
        exact Option.some.inj this
      · have := htells.failure hr i
        rw [hslots, if_pos rfl, hk] at this
        exact Option.some.inj this
    · rintro ⟨hsuccess, hfailure⟩
      refine ⟨fun hr => ⟨Nat.succ_ne_zero i, ?_⟩, fun hr j => ?_, fun j hj => ?_⟩
      · rw [Nat.add_sub_cancel, hslots, if_pos rfl, hsuccess hr]
      · rw [hslots]
        split
        · rename_i hji
          rw [hji, hk, hfailure hr]
        · rfl
      · rw [hslots, if_neg (by omega)]

/-- A plugin directory whose library has no start function. -/
def noStartDir (name : CStr) : Entry := { pluginDir name true with startSym := false }

/-- A plugin is stopped: the result tells the truth. -/
theorem result_codes_stop :
    ∃ s₀ s s', loading.run [noStartDir ['a']] (State.init noTypes) = some s₀ ∧
      manager.run [.boot 0 0 0] s₀ = some s ∧ LifeOp.stop.call 1 s = some (.success, s') ∧
      Tells .stop 1 s .success s' := by
  have hall : ((loading.run [noStartDir ['a']] (State.init noTypes)).any fun s₀ =>
      (manager.run [.boot 0 0 0] s₀).any fun s => (LifeOp.stop.call 1 s).any fun p =>
        decide (p.1 = .success)) = true := by decide +kernel
  obtain ⟨s₀, hload, hall⟩ := Option.any_eq_true _ _ |>.mp hall
  obtain ⟨s, hrun, hall⟩ := Option.any_eq_true _ _ |>.mp hall
  obtain ⟨⟨r, s'⟩, hcall, hr⟩ := Option.any_eq_true _ _ |>.mp hall
  cases of_decide_eq_true hr
  refine ⟨s₀, s, s', hload, hrun, hcall, (result_codes_iff hload hrun hcall).mpr ?_⟩
  rintro ⟨-, h, -, ⟨ret, hret⟩, -⟩
  cases hret

/-- **Success, but stopped.** A plugin without a start function is stopped and started. -/
theorem started_plugin_stopped :
    ∃ s₀ s s', loading.run [noStartDir ['a']] (State.init noTypes) = some s₀ ∧
      manager.run [.boot 0 0 0, .stop 1] s₀ = some s ∧
      (LifeOp.start 0).call 1 s = some (.success, s') ∧ s'.stateOf 0 = some .stopped ∧
      ¬ Tells (.start 0) 1 s .success s' := by
  have hall : ((loading.run [noStartDir ['a']] (State.init noTypes)).any fun s₀ =>
      (manager.run [.boot 0 0 0, .stop 1] s₀).any fun s => ((LifeOp.start 0).call 1 s).any fun p =>
        decide (p.1 = .success) && decide (p.2.stateOf 0 = some .stopped)) = true := by decide +kernel
  obtain ⟨s₀, hload, hall⟩ := Option.any_eq_true _ _ |>.mp hall
  obtain ⟨s, hrun, hall⟩ := Option.any_eq_true _ _ |>.mp hall
  obtain ⟨⟨r, s'⟩, hcall, hr⟩ := Option.any_eq_true _ _ |>.mp hall
  obtain ⟨hr, hstopped⟩ := Bool.and_eq_true_iff.mp hr
  cases of_decide_eq_true hr
  refine ⟨s₀, s, s', hload, hrun, hcall, of_decide_eq_true hstopped, fun h => ?_⟩
  have := (h.success rfl).2
  rw [of_decide_eq_true hstopped] at this
  cases this

end Plugin
end CoreCDTL
