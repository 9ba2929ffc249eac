import CoreCDTL.Gateway.Protocol

/-!
# The gateway library: `gateway_stop_lib`, then `gateway_close_lib`

The command `stop` calls the two one after the other. The first clears the flag that the second
asks for.

* `Released`: what a stopped gateway should look like.
* `DispatcherClosed`: what holds of the dispatcher in every reachable state.
* `stop_close_releases_iff`: the reachable states from which the two calls release the library.
-/

namespace CoreCDTL
namespace Gateway

/-- The library is released and the next load is not refused. -/
structure Released (g : State) : Prop where
  connected : g.connected = false
  isAlive : g.isAlive = false
  initFn : g.initFn = none
  startFn : g.startFn = none
  stopFn : g.stopFn = none
  onDataFn : g.onDataFn = none
  closeFn : g.closeFn = none
  dispatcher : g.dispatcherRunning = false ∧ g.onDataCb = none
  next : ∀ l, ∃ status g', gatewayInitLib l g = some (status, g') ∧
    status ≠ GATEWAY_ALREADY_INITIALIZED

/-- The function pointers are NULL. -/
structure State.NoFns (g : State) : Prop where
  initFn : g.initFn = none
  startFn : g.startFn = none
  stopFn : g.stopFn = none
  onDataFn : g.onDataFn = none
  closeFn : g.closeFn = none

/-- Without a connection and a running library the dispatcher is closed. -/
def DispatcherClosed (g : State) : Prop :=
  g.connected = false → g.isAlive = false → g.dispatcherRunning = false ∧ g.onDataCb = none

theorem released_of {g : State} (connected : g.connected = false) (alive : g.isAlive = false)
    (fns : g.NoFns) (dispatcher : g.dispatcherRunning = false ∧ g.onDataCb = none) :
    Released g where
  connected := connected
  isAlive := alive
  initFn := fns.initFn
  startFn := fns.startFn
  stopFn := fns.stopFn
  onDataFn := fns.onDataFn
  closeFn := fns.closeFn
  dispatcher := dispatcher
  next := fun l => by
    rcases gatewayInitLib_moves l alive with ⟨-, he⟩ | ⟨-, status, g', he, -, hne, -⟩
    · exact ⟨_, _, he, by decide⟩
    · exact ⟨status, g', he, hne⟩

theorem released_clear (g : State) : Released (gatewayClear g) :=
  released_of rfl rfl ⟨rfl, rfl, rfl, rfl, rfl⟩ ⟨rfl, rfl⟩

/-- `gateway_close_lib` clears the state, or there is no connection. -/
theorem gatewayCloseLib_some {g g' : State} (h : gatewayCloseLib g = some g') :
    g.connected = false ∧ g' = g ∨ g.connected = true ∧ ∃ k, g' = gatewayClear k := by
  unfold gatewayCloseLib at h
  split at h
  · rename_i hc
    split at h
    · obtain ⟨a, -, h⟩ := Option.bind_eq_some_iff.mp h
      obtain ⟨b, -, h⟩ := Option.bind_eq_some_iff.mp h
      cases h
      exact .inr ⟨hc, b, rfl⟩
    · obtain ⟨a, -, h⟩ := Option.bind_eq_some_iff.mp h
      obtain ⟨b, -, h⟩ := Option.bind_eq_some_iff.mp h
      cases h
      exact .inr ⟨hc, b, rfl⟩
  · rename_i hc
    cases h
    exact .inl ⟨by simpa using hc, rfl⟩

theorem dispatcherClosed_keeps :
    gateway.Keeps (fun _ _ => True) fun s => DispatcherClosed s.lib := by
  intro s a s' hs _ h
  change step a s = some s' at h
  cases a with
  | init l =>
    cases alive : s.lib.isAlive with
    | true =>
      rw [step_init_alive alive l] at h
      cases h
      exact hs
    | false =>
      rcases gatewayInitLib_moves l alive with ⟨-, he⟩ | ⟨-, status, g', he, hne, -, hr⟩
      · rw [step_init_ok he] at h
        cases h
        exact fun hc => nomatch hc
      · rw [step_init_failed he hne] at h
        cases h
        intro hc ha
        rw [hr.running, hr.onDataCb]
        exact hs (hr.connected ▸ hc) (hr.isAlive ▸ ha)
  | start =>
    obtain ⟨g, hg, rfl⟩ := Option.map_eq_some_iff.mp h
    unfold gatewayStartLib at hg
    split at hg
    · obtain ⟨k, -, rfl⟩ := Option.map_eq_some_iff.mp hg
      exact fun _ ha => nomatch ha
    · cases hg
      exact hs
  | stop =>
    obtain ⟨g, hg, rfl⟩ := Option.map_eq_some_iff.mp h
    unfold gatewayStopLib at hg
    split at hg
    · rename_i hc
      obtain ⟨lib, -, rfl⟩ := Option.map_eq_some_iff.mp hg
      intro _ ha
      have halive : s.lib.isAlive = false := ha
      rw [hc.2] at halive
      cases halive
    · cases hg
      exact hs
  | restart =>
    obtain ⟨g, hg, rfl⟩ := Option.map_eq_some_iff.mp h
    unfold gatewayRestartLib at hg
    split at hg
    · obtain ⟨b, -, hg⟩ := Option.bind_eq_some_iff.mp hg
      obtain ⟨c, -, hg⟩ := Option.bind_eq_some_iff.mp hg
      cases hg
      exact fun hc => nomatch hc
    · cases hg
      exact hs
  | close =>
    obtain ⟨g, hg, rfl⟩ := Option.map_eq_some_iff.mp h
    rcases gatewayCloseLib_some hg with ⟨-, rfl⟩ | ⟨-, k, rfl⟩
    · exact hs
    · exact fun _ _ => ⟨rfl, rfl⟩

/-- **Stop, then close.** In every reachable state: `gateway_stop_lib` and then `gateway_close_lib`
release the library if and only if it is not running, and either it is connected with a `close`
function, or it is not connected and no function pointer is left. -/
theorem stop_close_releases_iff {s : Gw} (hs : gateway.Reach (· = Gw.zero) s) :
    (∃ g, (gatewayStopLib s.lib).bind gatewayCloseLib = some g ∧ Released g) ↔
      s.lib.isAlive = false ∧
        (s.lib.connected = true ∧ s.lib.closeFn ≠ none ∨
          s.lib.connected = false ∧ s.lib.NoFns) := by
  have hclosed : DispatcherClosed s.lib :=
    dispatcherClosed_keeps.reach (by rintro _ rfl; exact fun _ _ => ⟨rfl, rfl⟩) hs
  cases alive : s.lib.isAlive with
  | true =>
    -- `gateway_stop_lib` clears the flag that `gateway_close_lib` asks for.
    refine iff_of_false ?_ (fun h => nomatch h.1)
    rintro ⟨g, hg, hrel⟩
    obtain ⟨k, hk, hg⟩ := Option.bind_eq_some_iff.mp hg
    have hkflags : k.connected = false ∧ k.isAlive = true := by
      unfold gatewayStopLib at hk
      split at hk
      · obtain ⟨lib, -, rfl⟩ := Option.map_eq_some_iff.mp hk
        exact ⟨rfl, alive⟩
      · rename_i hc
        cases hk
        rw [alive] at hc
        exact ⟨by simpa using hc, alive⟩
    rcases gatewayCloseLib_some hg with ⟨-, rfl⟩ | ⟨hc, -⟩
    · exact absurd (hkflags.2.symm.trans hrel.isAlive) (by decide)
    · exact absurd (hkflags.1.symm.trans hc) (by decide)
  | false =>
    have hstop : gatewayStopLib s.lib = some s.lib := by simp [gatewayStopLib, alive]
    rw [hstop, Option.bind_some]
    cases connected : s.lib.connected with
    | true =>
      cases hfn : s.lib.closeFn with
      | none => simp [gatewayCloseLib, connected, alive, State.call, hfn]
      | some lib =>
        rw [gatewayCloseLib_idle connected alive hfn]
        exact iff_of_true ⟨_, rfl, released_clear _⟩ ⟨rfl, .inl ⟨rfl, by simp⟩⟩
    | false =>
      have hclose : gatewayCloseLib s.lib = some s.lib := by simp [gatewayCloseLib, connected]
      rw [hclose]
      constructor
      · rintro ⟨g, hg, hrel⟩
        cases hg
        exact ⟨rfl, .inr ⟨rfl, hrel.initFn, hrel.startFn, hrel.stopFn, hrel.onDataFn,
          hrel.closeFn⟩⟩
      · rintro ⟨-, ⟨hc, -⟩ | ⟨-, hfns⟩⟩
        · cases hc
        · exact ⟨_, rfl, released_of connected alive hfns (hclosed connected alive)⟩

/-- The first library is initialised. -/
def initialised : Gw := ⟨opened State.zero, 1⟩

/-- An initialised library that is not started yet is released. -/
theorem stop_close_releases_iff_initialised :
    ∃ g, gateway.run [.init .ok] Gw.zero = some initialised ∧
      (gatewayStopLib initialised.lib).bind gatewayCloseLib = some g ∧ Released g :=
  have ⟨g, hg, hrel⟩ := (@stop_close_releases_iff initialised ⟨Gw.zero, [.init .ok], rfl, rfl⟩).mpr
    ⟨rfl, .inl ⟨rfl, by decide⟩⟩
  ⟨g, rfl, hg, hrel⟩

/-- The library runs. -/
def running : Gw := ⟨{ (opened State.zero).after [.start 0] with isAlive := true }, 1⟩

/-- **A library that is never released.** After `gateway_stop_lib` the flag that `gateway_close_lib`
asks for is clear: the library is not closed, and no library can be loaded any more. -/
theorem stop_close_keeps_library :
    gateway.run [.init .ok, .start] Gw.zero = some running ∧
      (gatewayStopLib running.lib).bind gatewayCloseLib =
        some { running.lib.after [.stop 0] with connected := false } ∧
      ¬ Released { running.lib.after [.stop 0] with connected := false } ∧
      gatewayInitLib .ok { running.lib.after [.stop 0] with connected := false } =
        some (GATEWAY_ALREADY_INITIALIZED, { running.lib.after [.stop 0] with connected := false }) :=
  ⟨rfl, rfl, fun h => absurd h.isAlive (by decide), rfl⟩

end Gateway
end CoreCDTL
