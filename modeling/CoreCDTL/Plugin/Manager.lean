import CoreCDTL.Lib.Machine
import CoreCDTL.Plugin.Loader

/-!
# The plugin manager (`plugin/plugin_manager.c`)

`plugin_init` loads every plugin directory into the table `plugins`, then initializes and starts
the plugins. The table is indexed by plugin id minus one.

* `loading`: one step is the body of the loading loop on one directory entry. `State.plugins` is
  the used part of the table, `none` while `plugins` is NULL; reading or writing a slot then
  faults. `loadEntry_case` is the inversion of such a step.
* `manager`: one step is a turn of the second loop of `plugin_init` (`boot`) or a call of one of
  the lifecycle operations. `State.calls` is the history of the calls into the plugins.
* An operation on a plugin is a function of its handle that returns the calls that it makes;
  `onPlugin` looks the id up and applies it. `State.lost` counts the ids that loads took and no
  slot holds (history).
-/

namespace CoreCDTL
namespace Plugin

/-- A call of a function of the library with this number. -/
inductive Call where
  | initializeFn (lib : Nat)
  | startFn (lib : Nat)
  | stopFn (lib : Nat)
  | shutdownFn (lib : Nat)
  deriving DecidableEq, Repr

/-- The function is one of the handle's. -/
def Call.Of (f : Funcs) : Call → Prop
  | initializeFn lib => f.initializeFn = some lib
  | startFn lib => f.startFn = some lib
  | stopFn lib => f.stopFn = some lib
  | shutdownFn lib => f.shutdownFn = some lib

/-- The globals of `plugin_manager.c`, with those of the loader and the histories. -/
structure State where
  loader : Loader
  plugins : Option (List Handle)
  pluginsCount : Nat
  pluginsCapacity : Nat
  calls : List Call
  lost : Nat

/-- At program start, with a type registry. -/
def State.init (hk : HeapKit.State) : State where
  loader := ⟨1, hk, 0, 0⟩
  plugins := none
  pluginsCount := 0
  pluginsCapacity := 0
  calls := []
  lost := 0

/-- `plugins[i]`, if it is a used slot. -/
def State.slot (s : State) (i : Nat) : Option Handle := s.plugins.bind (·[i]?)

/-! ## The loading loop -/

/-- `plugins[plugins_count++] = *plugin`. -/
def State.store (s : State) (h : Handle) : Option State :=
  s.plugins.map fun l => { s with plugins := some (l ++ [h]), pluginsCount := s.pluginsCount + 1 }

/-- The body of the loading loop of `plugin_init`. -/
def loadEntry (e : Entry) (s : State) : Option State :=
  if e.isDir = false ∨ e.dName.head? = some '.' then some s
  else
    match pluginLoad e s.loader with
    | none => none
    | some (none, g) => some { s with loader := g, lost := s.lost + (takesId e).toNat }
    | some (some h, g) =>
      let s := { s with loader := g }
      if s.pluginsCount ≥ s.pluginsCapacity then
        let s := { s with
          pluginsCapacity := if s.pluginsCapacity ≠ 0 then s.pluginsCapacity * 2 else 10 }
        if e.grow then { s with plugins := some (s.plugins.getD []) }.store h
        else some { s with plugins := none, lost := s.lost + 1 }
      else s.store h

def loading : Machine State Entry := ⟨loadEntry⟩

/-- The entry is a plugin directory. -/
def Entry.IsPlugin (e : Entry) : Prop := e.isDir = true ∧ e.dName.head? ≠ some '.'

/-- The capacity that the table grows to. -/
def grownCapacity (capacity : Nat) : Nat := if capacity ≠ 0 then capacity * 2 else 10

theorem lt_grownCapacity (capacity : Nat) : capacity < grownCapacity capacity := by
  unfold grownCapacity
  split <;> omega

/-- The ways of an entry through the body of the loading loop. -/
inductive EntryCase (e : Entry) (s : State) : Option State → Prop
  | skipped (skip : ¬ e.IsPlugin) : EntryCase e s (some s)
  | fault (dir : e.IsPlugin) (load : pluginLoad e s.loader = none) : EntryCase e s none
  | failed (g : Loader) (dir : e.IsPlugin) (load : pluginLoad e s.loader = some (none, g)) :
      EntryCase e s (some { s with loader := g, lost := s.lost + (takesId e).toNat })
  /-- The table is NULL where it should have room. -/
  | noTable (h : Handle) (g : Loader) (dir : e.IsPlugin)
      (load : pluginLoad e s.loader = some (some h, g)) (room : s.pluginsCount < s.pluginsCapacity)
      (table : s.plugins = none) : EntryCase e s none
  | stored (h : Handle) (g : Loader) (l : List Handle) (dir : e.IsPlugin)
      (load : pluginLoad e s.loader = some (some h, g)) (room : s.pluginsCount < s.pluginsCapacity)
      (table : s.plugins = some l) :
      EntryCase e s (some { s with
        loader := g, plugins := some (l ++ [h]), pluginsCount := s.pluginsCount + 1 })
  | grown (h : Handle) (g : Loader) (dir : e.IsPlugin)
      (load : pluginLoad e s.loader = some (some h, g)) (full : s.pluginsCapacity ≤ s.pluginsCount)
      (grow : e.grow = true) :
      EntryCase e s (some { s with
        loader := g, plugins := some (s.plugins.getD [] ++ [h]), pluginsCount := s.pluginsCount + 1
        pluginsCapacity := grownCapacity s.pluginsCapacity })
  /-- The table could not grow. -/
  | dropped (h : Handle) (g : Loader) (dir : e.IsPlugin)
      (load : pluginLoad e s.loader = some (some h, g)) (full : s.pluginsCapacity ≤ s.pluginsCount)
      (grow : e.grow = false) :
      EntryCase e s (some { s with
        loader := g, plugins := none, pluginsCapacity := grownCapacity s.pluginsCapacity
        lost := s.lost + 1 })

/-- **The inversion of a turn of the loading loop.** -/
theorem loadEntry_case (e : Entry) (s : State) : EntryCase e s (loadEntry e s) := by
  unfold loadEntry
  by_cases hskip : e.isDir = false ∨ e.dName.head? = some '.'
  · rw [if_pos hskip]
    refine .skipped fun h => ?_
    rcases hskip with hd | hn
    · rw [h.1] at hd; cases hd
    · exact h.2 hn
  rw [if_neg hskip]
  have hdir : e.IsPlugin := ⟨by simpa using fun h => hskip (.inl h), fun h => hskip (.inr h)⟩
  rcases hload : pluginLoad e s.loader with _ | ⟨_ | h, g⟩
  · exact .fault hdir hload
  · exact .failed g hdir hload
  simp only
  by_cases hfull : s.pluginsCount ≥ s.pluginsCapacity
  · rw [if_pos hfull]
    by_cases hgrow : e.grow = true
    · rw [if_pos hgrow]
      exact .grown h g hdir hload hfull hgrow
    · rw [if_neg hgrow]
      exact .dropped h g hdir hload hfull (by simpa using hgrow)
  · rw [if_neg hfull]
    unfold State.store
    cases ht : s.plugins with
    | none => exact .noTable h g hdir hload (by omega) ht
    | some l => exact .stored h g l hdir hload (by omega) ht

/-- A load that faults ends the loop. -/
theorem loadEntry_faults {e : Entry} {s : State} (dir : e.IsPlugin) (h : Faults e s.loader) :
    loadEntry e s = none := by
  have hload := pluginLoad_eq_none_iff.mpr h
  have hcase := loadEntry_case e s
  generalize loadEntry e s = r at hcase ⊢
  cases hcase with
  | skipped skip => exact absurd dir skip
  | fault => rfl
  | noTable => rfl
  | failed g dir load => cases hload.symm.trans load
  | stored h g l dir load => cases hload.symm.trans load
  | grown h g dir load => cases hload.symm.trans load
  | dropped h g dir load => cases hload.symm.trans load

/-! ## Lookup -/

def PLUGIN_ID_INVALID : Nat := 0

/-- `get_plugin_by_id`: the index of the slot. -/
def getPluginById (s : State) (id : Nat) : Option Nat :=
  if id = PLUGIN_ID_INVALID ∨ id > s.pluginsCount then none else some (id - 1)

/-- The text at a name; `stale n` is what is at the place of the `n`-th entry's name by now. -/
def Name.text (stale : Nat → CStr) : Name → CStr
  | borrowed n => stale n
  | owned text => text

/-- The search of `plugin_get_p_id`. -/
def findId (stale : Nat → CStr) (pluginName : CStr) : List Handle → Nat
  | [] => PLUGIN_ID_INVALID
  | h :: t =>
    if h.info.name.map (Name.text stale) = some pluginName then h.info.id
    else findId stale pluginName t

/-- `plugin_get_p_id`; `none` for a fault. -/
def pluginGetPId (stale : Nat → CStr) (s : State) (pluginName : Option CStr) : Option Nat :=
  match pluginName with
  | none => some PLUGIN_ID_INVALID
  | some name =>
    if s.pluginsCount = 0 then some PLUGIN_ID_INVALID else s.plugins.map (findId stale name)

/-- `plugin_get_name`; `none` for a fault. Its `index` is an `int`. -/
def pluginGetName (s : State) (id : Nat) : Option (Option Name) :=
  if id = PLUGIN_ID_INVALID ∨ id > s.pluginsCount then some none
  else
    let index : Int := (id - 1 : Int).bmod (2 ^ 32)
    if index < 0 then none else (s.slot index.toNat).map fun h => h.info.name

/-- `plugin_bridge_get_fn_ptr`; `none` for a fault. `dlsym lib fnName` is the address of a function
of a library. -/
def pluginBridgeGetFnPtr (stale : Nat → CStr) (dlsym : Nat → CStr → Option Nat) (s : State)
    (pluginName : Option CStr) (fnName : CStr) : Option (Option Nat) :=
  match pluginGetPId stale s pluginName with
  | none => none
  | some id =>
    match getPluginById s id with
    | none => some none
    | some i => (s.slot i).map fun h => h.so.bind fun lib => dlsym lib fnName

/-! ## Lifecycle operations -/

/-- `plugin_op_result_t`. -/
inductive OpResult where
  | success | invalidId | notFound | alreadyInState | funcNotAvailable | funcFailed
  deriving DecidableEq, Repr

/-- What an operation does to a plugin: its result, the handle after it and its calls. -/
abbrev Operation (ρ : Type) := Handle → ρ × Handle × List Call

/-- An operation on the plugin with an id; `none` for a fault. -/
def onPlugin {ρ : Type} (invalid notFound : ρ) (op : Operation ρ) (id : Nat) (s : State) :
    Option (ρ × State) :=
  if id = PLUGIN_ID_INVALID then some (invalid, s)
  else
    match getPluginById s id with
    | none => some (notFound, s)
    | some i =>
      (s.slot i).map fun h =>
        ((op h).1, { s with plugins := s.plugins.map (·.set i (op h).2.1)
                            calls := s.calls ++ (op h).2.2 })

/-- The call of a function pointer that the code has checked, or no call for NULL. -/
def callOf (c : Nat → Call) (fn : Option Nat) : List Call := fn.toList.map c

/-- `plugin_shutdown` on the handle. -/
def shutdownHandle : Operation OpResult := fun h =>
  if h.state = .killed then (.alreadyInState, h, [])
  else
    let stop := if h.state ≠ .stopped then callOf .stopFn h.funcs.stopFn else []
    (.success, { h with state := .killed }, stop ++ callOf .shutdownFn h.funcs.shutdownFn)

/-- `plugin_initialize` on the handle; `ret` is what its initialize function returns. -/
def initializeHandle (ret : Int) : Operation OpResult := fun h =>
  if h.state.toNat ≥ PluginState.killed.toNat then (.alreadyInState, h, [])
  else if h.funcs.initializeFn = none then (.funcNotAvailable, h, [])
  else if ret ≠ 0 then (.funcFailed, h, callOf .initializeFn h.funcs.initializeFn)
  else (.success, { h with state := .alive },
    callOf .initializeFn h.funcs.initializeFn ++ callOf .startFn h.funcs.startFn)

/-- `plugin_start` on the handle; `ret` is what its start function returns. -/
def startHandle (ret : Int) : Operation OpResult := fun h =>
  if h.state = .alive then (.alreadyInState, h, [])
  else if h.funcs.startFn = none then (.success, h, [])
  else if ret ≠ 0 then (.funcFailed, h, callOf .startFn h.funcs.startFn)
  else (.success, { h with state := .alive }, callOf .startFn h.funcs.startFn)

/-- `plugin_stop` on the handle. -/
def stopHandle : Operation OpResult := fun h =>
  if h.state ≠ .alive then (.alreadyInState, h, [])
  else if h.funcs.stopFn = none then (.funcNotAvailable, h, [])
  else (.success, { h with state := .stopped }, callOf .stopFn h.funcs.stopFn)

/-- `pm_action_reboot` on the handle. -/
def rebootHandle (action : Nat) : Operation Int := fun h =>
  if h.funcs.startFn = none ∨ h.funcs.stopFn = none then (-2, h, [])
  else if action = 1 then
    if h.state = .alive then (-3, h, [])
    else (0, { h with state := .alive }, callOf .startFn h.funcs.startFn)
  else if h.state = .stopped then (-3, h, [])
  else (0, { h with state := .stopped }, callOf .stopFn h.funcs.stopFn)

def pluginShutdown : Nat → State → Option (OpResult × State) :=
  onPlugin .invalidId .notFound shutdownHandle

def pluginInitialize (ret : Int) : Nat → State → Option (OpResult × State) :=
  onPlugin .invalidId .notFound (initializeHandle ret)

def pluginStart (ret : Int) : Nat → State → Option (OpResult × State) :=
  onPlugin .invalidId .notFound (startHandle ret)

def pluginStop : Nat → State → Option (OpResult × State) :=
  onPlugin .invalidId .notFound stopHandle

/-- `pm_action_reboot`: `get_plugin_by_id` is NULL for the invalid id as well. -/
def pmActionReboot (action : Nat) : Nat → State → Option (Int × State) :=
  onPlugin (-1) (-1) (rebootHandle action)

/-! ## The second loop of `plugin_init` -/

/-- A turn of the loop on a handle: whether the plugin stays, the handle after it and the calls;
`FREE_PLUGIN_HANDLE` zeroes the handle. -/
def bootHandle (initRet startRet : Int) : Operation Bool := fun h =>
  let called := callOf .initializeFn h.funcs.initializeFn
  if initRet ≠ 0 then (false, Handle.zero, called)
  else if h.funcs.startFn ≠ none ∧ startRet ≠ 0 then
    (false, Handle.zero, called ++ callOf .startFn h.funcs.startFn ++
      callOf .shutdownFn h.funcs.shutdownFn)
  else (true, { h with state := .alive }, called ++ callOf .startFn h.funcs.startFn)

/-- A turn of the loop on slot `i`; calling NULL as initialize function faults. -/
def bootSlot (initRet startRet : Int) (i : Nat) (s : State) : Option State :=
  match s.slot i with
  | none => none
  | some h =>
    if h.funcs.initializeFn = none then none
    else
      let (stays, h', calls) := bootHandle initRet startRet h
      let badFrees := if stays then s.loader.badFrees else freeName h.info.name s.loader.badFrees
      some { s with plugins := s.plugins.map (·.set i h')
                    loader := { s.loader with badFrees := badFrees }
                    calls := s.calls ++ calls }

/-- A turn of the loop makes the plugin alive or frees it. -/
theorem bootHandle_handle (initRet startRet : Int) (h : Handle) :
    (bootHandle initRet startRet h).2.1 = { h with state := .alive } ∨
      (bootHandle initRet startRet h).2.1 = Handle.zero := by
  unfold bootHandle
  simp only
  split
  · exact .inr rfl
  split
  · exact .inr rfl
  · exact .inl rfl

/-- **The inversion of a turn.** -/
theorem bootSlot_some {initRet startRet : Int} {i : Nat} {s s' : State}
    (h : bootSlot initRet startRet i s = some s') :
    ∃ k, s.slot i = some k ∧ s' = { s with
      plugins := s.plugins.map (·.set i (bootHandle initRet startRet k).2.1)
      loader := { s.loader with
        badFrees := if (bootHandle initRet startRet k).1 then s.loader.badFrees
          else freeName k.info.name s.loader.badFrees }
      calls := s.calls ++ (bootHandle initRet startRet k).2.2 } := by
  unfold bootSlot at h
  cases hslot : s.slot i with
  | none => simp only [hslot, reduceCtorEq] at h
  | some k =>
    simp only [hslot] at h
    split at h
    · cases h
    · cases h
      exact ⟨k, rfl, rfl⟩

/-- The steps after the loading loop, with what the plugin's functions return. -/
inductive Act where
  | boot (i : Nat) (initRet startRet : Int)
  | shutdown (id : Nat)
  | initializeP (id : Nat) (ret : Int)
  | start (id : Nat) (ret : Int)
  | stop (id : Nat)
  | reboot (id action : Nat)

def Act.step : Act → State → Option State
  | boot i initRet startRet, s => bootSlot initRet startRet i s
  | shutdown id, s => (pluginShutdown id s).map (·.2)
  | initializeP id ret, s => (pluginInitialize ret id s).map (·.2)
  | start id ret, s => (pluginStart ret id s).map (·.2)
  | stop id, s => (pluginStop id s).map (·.2)
  | reboot id action, s => (pmActionReboot action id s).map (·.2)

def manager : Machine State Act := ⟨Act.step⟩

end Plugin
end CoreCDTL
