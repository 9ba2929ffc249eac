import CoreCDTL.Lib.CString

/-!
# The gateway library (`gateway/gateway.c`)

The gateway is a shared library that the core loads. `gateway_init_lib` loads it and takes the
addresses of its five functions; the other functions call them.

* `Load` is the outcome of everything that loading depends on. The libraries are numbered in the
  order in which `dlopen` gave them; a function pointer is the number of its library, `none` for
  NULL.
* `trace` is the history of the calls into the libraries. A call through NULL faults (`none`).
* `g_gateway_connected_flag` is `connected`; `isAlive` is the `gateway_is_alive` of `gateway.c`
  (`core_ctl.c` has a variable of that name of its own).
-/

namespace CoreCDTL
namespace Gateway

/-! ## Status codes -/

def GATEWAY_OK : Int := 0
def GATEWAY_ALREADY_INITIALIZED : Int := -7
def GATEWAY_FILE_NOT_FOUND : Int := -10
def GATEWAY_DLOPEN_FAILED : Int := -1
def GATEWAY_INIT_SYMBOL_NOT_FOUND : Int := -2
def GATEWAY_START_SYMBOL_NOT_FOUND : Int := -3
def GATEWAY_STOP_SYMBOL_NOT_FOUND : Int := -4
def GATEWAY_ON_DATA_SYMBOL_NOT_FOUND : Int := -5
def GATEWAY_CLOSE_SYMBOL_NOT_FOUND : Int := -6

/-- `gateway_status_to_str`. -/
def gatewayStatusToStr (status : Int) : CStr :=
  if status = GATEWAY_OK then "Gateway initialized successfully.".toList
  else if status = GATEWAY_ALREADY_INITIALIZED then "Gateway is already initialized.".toList
  else if status = GATEWAY_FILE_NOT_FOUND then "Gateway library file not found.".toList
  else if status = GATEWAY_DLOPEN_FAILED then
    "Failed to load gateway library (dlopen failed).".toList
  else if status = GATEWAY_INIT_SYMBOL_NOT_FOUND then
    "Missing 'init' function in gateway library.".toList
  else if status = GATEWAY_START_SYMBOL_NOT_FOUND then
    "Missing 'start' function in gateway library.".toList
  else if status = GATEWAY_STOP_SYMBOL_NOT_FOUND then
    "Missing 'stop' function in gateway library.".toList
  else if status = GATEWAY_CLOSE_SYMBOL_NOT_FOUND then
    "Missing 'close' function in gateway library.".toList
  else if status = GATEWAY_ON_DATA_SYMBOL_NOT_FOUND then
    "Missing 'on_data' function in gateway library.".toList
  else "Unknown error occurred.".toList

/-! ## State -/

/-- The outcome of `stat`, `dlopen` and the five `dlsym`. -/
structure Load where
  file : Bool
  dlopen : Bool
  init : Bool
  start : Bool
  stop : Bool
  close : Bool
  onData : Bool
  deriving DecidableEq, Repr

/-- Everything is there. -/
def Load.ok : Load := ⟨true, true, true, true, true, true, true⟩

/-- A call into the library with this number. -/
inductive Callback where
  | init (lib : Nat)
  | start (lib : Nat)
  | stop (lib : Nat)
  | close (lib : Nat)
  deriving DecidableEq, Repr

/-- The globals of `gateway.c`, and of the dispatcher as far as the library's life touches them. -/
structure State where
  connected : Bool
  isAlive : Bool
  initFn : Option Nat
  startFn : Option Nat
  stopFn : Option Nat
  onDataFn : Option Nat
  closeFn : Option Nat
  dispatcherRunning : Bool
  onDataCb : Option Nat
  loads : Nat
  trace : List Callback
  deriving DecidableEq, Repr

/-- At program start. -/
def State.zero : State where
  connected := false
  isAlive := false
  initFn := none
  startFn := none
  stopFn := none
  onDataFn := none
  closeFn := none
  dispatcherRunning := false
  onDataCb := none
  loads := 0
  trace := []

/-! ## The functions -/

/-- A call through a function pointer. -/
def State.call (g : State) (fn : Option Nat) (c : Nat → Callback) : Option State :=
  fn.map fun lib => { g with trace := g.trace ++ [c lib] }

/-- `dlsym` in the library `lib`. -/
def dlsym (found : Bool) (lib : Nat) : Option Nat := if found then some lib else none

/-- `gateway_dispatcher_init`. -/
def gatewayDispatcherInit (onDataFn : Option Nat) (g : State) : State :=
  { g with dispatcherRunning := true, onDataCb := onDataFn }

/-- `gateway_dispatcher_close`. -/
def gatewayDispatcherClose (g : State) : State :=
  { g with dispatcherRunning := false, onDataCb := none }

/-- `gateway_init_lib`: the status and the state after it. -/
def gatewayInitLib (l : Load) (g : State) : Option (Int × State) :=
  if g.isAlive then some (GATEWAY_ALREADY_INITIALIZED, g)
  else if l.file = false then some (GATEWAY_FILE_NOT_FOUND, g)
  else if l.dlopen = false then some (GATEWAY_DLOPEN_FAILED, g)
  else
    let lib := g.loads
    let g := { g with loads := lib + 1, initFn := dlsym l.init lib }
    if g.initFn = none then some (GATEWAY_INIT_SYMBOL_NOT_FOUND, g)
    else
      let g := { g with startFn := dlsym l.start lib }
      if g.startFn = none then some (GATEWAY_START_SYMBOL_NOT_FOUND, g)
      else
        let g := { g with stopFn := dlsym l.stop lib }
        if g.stopFn = none then some (GATEWAY_STOP_SYMBOL_NOT_FOUND, g)
        else
          let g := { g with closeFn := dlsym l.close lib }
          if g.closeFn = none then some (GATEWAY_CLOSE_SYMBOL_NOT_FOUND, g)
          else
            let g := { g with onDataFn := dlsym l.onData lib }
            if g.onDataFn = none then some (GATEWAY_ON_DATA_SYMBOL_NOT_FOUND, g)
            else
              (g.call g.initFn .init).map fun g =>
                (GATEWAY_OK, { gatewayDispatcherInit g.onDataFn g with connected := true })

/-- `gateway_start_lib`. -/
def gatewayStartLib (g : State) : Option State :=
  if g.connected ∧ g.isAlive = false then
    (g.call g.startFn .start).map fun g => { g with isAlive := true }
  else some g

/-- `gateway_stop_lib`. -/
def gatewayStopLib (g : State) : Option State :=
  if g.connected ∧ g.isAlive then
    ({ g with connected := false } : State).call g.stopFn .stop
  else some g

/-- `gateway_restart_lib`. -/
def gatewayRestartLib (g : State) : Option State :=
  if g.connected then do
    let g ← g.call g.stopFn .stop
    let g ← ({ g with connected := false } : State).call g.startFn .start
    return { g with connected := true }
  else some g

/-- `gateway_clear`. -/
def gatewayClear (g : State) : State :=
  { gatewayDispatcherClose { g with connected := false, isAlive := false } with
    initFn := none
    startFn := none
    stopFn := none
    onDataFn := none
    closeFn := none }

/-- `gateway_close_lib`. -/
def gatewayCloseLib (g : State) : Option State :=
  if g.connected then do
    let g ← if g.isAlive then ({ g with isAlive := false } : State).call g.stopFn .stop
      else some g
    let g ← ({ g with connected := false } : State).call g.closeFn .close
    return gatewayClear g
  else some g

/-- A failed load changes nothing but the function pointers; a successful one sets them all, calls
the library's `init` and connects. -/
theorem gatewayInitLib_cases (l : Load) (g : State) (ha : g.isAlive = false) :
    (∃ status g', gatewayInitLib l g = some (status, g') ∧ status ≠ GATEWAY_OK ∧ l ≠ .ok ∧
        g'.connected = g.connected ∧ g'.isAlive = false) ∨
      (∃ g', gatewayInitLib l g = some (GATEWAY_OK, g') ∧ l = .ok ∧ g'.connected = true ∧
        g'.isAlive = false ∧ g'.startFn = some g.loads) := by
  obtain ⟨file, dl, init, start, stop, close, onData⟩ := l
  unfold gatewayInitLib
  rw [if_neg (by simp [ha])]
  cases file
  · exact .inl ⟨_, _, rfl, by decide, by simp [Load.ok], rfl, ha⟩
  cases dl
  · exact .inl ⟨_, _, rfl, by decide, by simp [Load.ok], rfl, ha⟩
  cases init
  · exact .inl ⟨_, _, rfl, by decide, by simp [Load.ok], rfl, ha⟩
  cases start
  · exact .inl ⟨_, _, rfl, by decide, by simp [Load.ok], rfl, ha⟩
  cases stop
  · exact .inl ⟨_, _, rfl, by decide, by simp [Load.ok], rfl, ha⟩
  cases close
  · exact .inl ⟨_, _, rfl, by decide, by simp [Load.ok], rfl, ha⟩
  cases onData
  · exact .inl ⟨_, _, rfl, by decide, by simp [Load.ok], rfl, ha⟩
  · exact .inr ⟨_, rfl, rfl, rfl, ha, rfl⟩

end Gateway
end CoreCDTL
