import CoreCDTL.Lib.Machine
import CoreCDTL.Lib.Ssa
import CoreCDTL.Plugin.Loader
import CoreCDTL.Scheduler.Timers
import Mathlib.Data.List.Nodup

/-!
# The stubs of a plugin (`plugin/plugin_stub.c`, `jit/llvm_jit.c`, `libs/jit/jit_stub_generator.cpp`)

A plugin calls the daemon through the pointers of its `core_api`. Six of them are functions that the
JIT compiles for this plugin: each passes its arguments on with the id of the plugin in front.

* `llvmJitInit`, `llvmJitCleanup`: the library of the generator and its symbols.
* `createStub` is what the six `create_api_*` have in common; the JIT compiles it at an address that is
  not in use, and the code stays, for no one calls `destroy_stub_function`.
* `pluginStubSetup`: makes the stubs one after the other, up to the first that fails.
* `invoke`: what a plugin's call through a pointer does, in any monad of effects that the functions of
  the daemon have.
* `pluginStubSetup_refines`: the outcome is the one that `Plugin.pluginLoad` has as a parameter.
* `Inv`, `stubs_call_own`: after any run of loads, with the library closed and opened between them,
  a stub does what the function behind it does with the id of its plugin.
-/

namespace CoreCDTL
namespace Stubs

open Ssa (Ty Val FnType Fn Native World forward)

abbrev Addr := BitVec 64

/-! ## The functions of the daemon -/

inductive Real where
  | busSubscribe
  | schedulerEveryMs
  | schedulerAfterMs
  | schedulerCancel
  | hkGetField
  | hkSetField
  | busPublish
  | pluginGetPId
  deriving DecidableEq, Repr

def Real.all : List Real :=
  [.busSubscribe, .schedulerEveryMs, .schedulerAfterMs, .schedulerCancel, .hkGetField, .hkSetField,
    .busPublish, .pluginGetPId]

theorem Real.mem_all (f : Real) : f ∈ Real.all := by
  cases f <;> decide

/-- The prototypes. -/
def Real.ty : Real → FnType
  | .busSubscribe => ⟨[.i32, .ptr, .ptr, .ptr], .i32⟩
  | .schedulerEveryMs | .schedulerAfterMs => ⟨[.i32, .i64, .ptr, .ptr], .i32⟩
  | .schedulerCancel => ⟨[.i32, .i32], .i32⟩
  | .hkGetField | .hkSetField => ⟨[.i32, .ptr, .ptr, .ptr], .i32⟩
  | .busPublish => ⟨[.i32, .ptr, .ptr, .i64], .i32⟩
  | .pluginGetPId => ⟨[.ptr], .i32⟩

/-- The functions, with their effects, and where they are. -/
structure Daemon (m : Type → Type) where
  addr : Real → Addr
  addr_inj : ∀ f g, addr f = addr g → f = g
  run : (f : Real) → List Val → m { v : Val // v.ty = f.ty.ret }

def Daemon.world {m : Type → Type} (D : Daemon m) : World m := fun a =>
  (Real.all.find? fun f => D.addr f = a).map fun f => ⟨f.ty, D.run f⟩

/-! ## `llvm_jit.c` -/

inductive Sym where
  | createApiSubscribeStub
  | createApiSchedulerAfterStub
  | createApiSchedulerEveryMsStub
  | createApiSchedulerCancelStub
  | createApiHkGetterStub
  | createApiHkSetterStub
  | getStubFunction
  deriving DecidableEq, Repr

/-- In the order in which they are loaded. -/
def Sym.all : List Sym :=
  [.createApiSubscribeStub, .createApiSchedulerAfterStub, .createApiSchedulerEveryMsStub,
    .createApiSchedulerCancelStub, .createApiHkGetterStub, .createApiHkSetterStub, .getStubFunction]

theorem Sym.mem_all (x : Sym) : x ∈ Sym.all := by
  cases x <;> decide

/-- The pointers of `core_api_t`; `none` is NULL. -/
structure CoreApi where
  hkGetter : Option Addr
  hkSetter : Option Addr
  subscribe : Option Addr
  publish : Option Addr
  getPluginId : Option Addr
  timerAfterMs : Option Addr
  timerEveryMs : Option Addr
  timerCancel : Option Addr
  deriving DecidableEq, Repr

/-- A handle from `calloc`. -/
def CoreApi.zero : CoreApi := ⟨none, none, none, none, none, none, none, none⟩

/-- A plugin with its id and its interface. `ret` is history: what `plugin_stub_setup` returned. -/
structure Client where
  id : BitVec 32
  coreApi : CoreApi
  ret : Nat
  deriving DecidableEq, Repr

/-- The statics of `llvm_jit.c` and the code that the JIT has made. `opened` and `closed` are history:
how often the library was opened, and the handles closed. -/
structure State where
  dl : Option Nat
  symbols : Option (List Sym)
  opened : Nat
  closed : List Nat
  code : List (Addr × Fn)
  clients : List Client
  deriving DecidableEq, Repr

def init : State := ⟨none, none, 0, [], [], []⟩

/-- What the system calls of `llvm_jit_init` return. -/
structure LoadOutcome where
  dlopen : Bool
  calloc : Bool
  dlsym : Sym → Bool

/-- `dlclose(dl)`. -/
def State.close (s : State) : State := { s with dl := none, closed := s.closed ++ s.dl.toList }

/-- The uses of `LLVM_JIT_LOAD_SYMBOL`, from the symbols `xs` on. -/
def loadSymbols (o : LoadOutcome) : List Sym → State → State
  | [], s => s
  | x :: xs, s =>
    if o.dlsym x = false then { s with symbols := none }.close
    else loadSymbols o xs { s with symbols := s.symbols.map (· ++ [x]) }

/-- `llvm_jit_init`. -/
def llvmJitInit (o : LoadOutcome) (s : State) : State :=
  if s.symbols ≠ none then s
  else if o.dlopen = false then { s with dl := none }
  else
    let s := { s with dl := some s.opened, opened := s.opened + 1 }
    if o.calloc = false then s.close
    else loadSymbols o Sym.all { s with symbols := some [] }

/-- `llvm_jit_cleanup`. -/
def llvmJitCleanup (s : State) : State :=
  let s := if s.dl.isSome then s.close else s
  { s with symbols := none }

/-! ## `jit_stub_generator.cpp` -/

/-- What the JIT answers: whether it can be created, whether it takes the module, and where the code
is that it compiles. -/
structure JitOutcome where
  create : Bool
  addIRModule : Bool
  lookup : Option Addr
  deriving DecidableEq, Repr

/-- A module with one function, compiled and looked up under `symbol`. -/
def compile (f : Fn) (symbol : String) (o : JitOutcome) (code : List (Addr × Fn)) :
    Option Addr × List (Addr × Fn) :=
  if o.create = false then (none, code)
  else if o.addIRModule = false then (none, code)
  else if f.name ≠ symbol then (none, code)
  else
    match o.lookup with
    | none => (none, code)
    | some a => (some a, (a, f) :: code)

/-- What the functions below have in common: the stub's `fn_ptr`, or NULL. -/
def createStub (name : String) (params : List Ty) (symbol : String) (pluginId : BitVec 32)
    (realFn : Addr) : JitOutcome → List (Addr × Fn) → Option Addr × List (Addr × Fn) :=
  compile (forward name params .i32 [.i32 pluginId] realFn) symbol

def createApiSubscribeStub :=
  createStub "api_subscribe_stub" [.ptr, .ptr, .ptr] "api_subscribe_stub"

def createApiSchedulerAfterStub :=
  createStub "api_scheduler_after_ms_stub" [.i64, .ptr, .ptr] "api_scheduler_after_ms_stub"

def createApiSchedulerEveryMsStub :=
  createStub "api_scheduler_every_ms_stub" [.i64, .ptr, .ptr] "api_scheduler_every_ms_stub"

def createApiSchedulerCancelStub :=
  createStub "api_scheduler_cancel_stub" [.i32] "api_scheduler_cancel_stub"

def createApiHkGetterStub :=
  createStub "api_get_field_stub" [.ptr, .ptr, .ptr] "api_get_field_stub"

def createApiHkSetterStub :=
  createStub "api_set_field_stub" [.ptr, .ptr, .ptr] "api_set_field_stub"

/-! ## `plugin_stub.c` -/

inductive Stub where
  | eventBusSubscribe
  | schedulerEvery
  | schedulerAfter
  | schedulerCancel
  | hkGetField
  | hkSetField
  deriving DecidableEq, Repr

/-- In the order of `plugin_stub_setup`. -/
def Stub.all : List Stub :=
  [.eventBusSubscribe, .schedulerEvery, .schedulerAfter, .schedulerCancel, .hkGetField, .hkSetField]

/-- The generator of a stub, its symbol. -/
def Stub.sym : Stub → Sym
  | .eventBusSubscribe => .createApiSubscribeStub
  | .schedulerEvery => .createApiSchedulerEveryMsStub
  | .schedulerAfter => .createApiSchedulerAfterStub
  | .schedulerCancel => .createApiSchedulerCancelStub
  | .hkGetField => .createApiHkGetterStub
  | .hkSetField => .createApiHkSetterStub

def Stub.create : Stub → BitVec 32 → Addr → JitOutcome → List (Addr × Fn) →
    Option Addr × List (Addr × Fn)
  | .eventBusSubscribe => createApiSubscribeStub
  | .schedulerEvery => createApiSchedulerEveryMsStub
  | .schedulerAfter => createApiSchedulerAfterStub
  | .schedulerCancel => createApiSchedulerCancelStub
  | .hkGetField => createApiHkGetterStub
  | .hkSetField => createApiHkSetterStub

/-- The function that the stub calls. -/
def Stub.real : Stub → Real
  | .eventBusSubscribe => .busSubscribe
  | .schedulerEvery => .schedulerEveryMs
  | .schedulerAfter => .schedulerAfterMs
  | .schedulerCancel => .schedulerCancel
  | .hkGetField => .hkGetField
  | .hkSetField => .hkSetField

/-- The pointer of the interface that the stub is for. -/
def CoreApi.get (api : CoreApi) : Stub → Option Addr
  | .eventBusSubscribe => api.subscribe
  | .schedulerEvery => api.timerEveryMs
  | .schedulerAfter => api.timerAfterMs
  | .schedulerCancel => api.timerCancel
  | .hkGetField => api.hkGetter
  | .hkSetField => api.hkSetter

def CoreApi.set (api : CoreApi) (a : Addr) : Stub → CoreApi
  | .eventBusSubscribe => { api with subscribe := some a }
  | .schedulerEvery => { api with timerEveryMs := some a }
  | .schedulerAfter => { api with timerAfterMs := some a }
  | .schedulerCancel => { api with timerCancel := some a }
  | .hkGetField => { api with hkGetter := some a }
  | .hkSetField => { api with hkSetter := some a }

/-- `plugin_stub_event_bus_subscribe` and its five siblings; `none` for a call through a symbol that
is NULL. -/
def pluginStub (real : Real → Addr) (id : BitVec 32) (k : Stub) (o : JitOutcome) (api : CoreApi)
    (s : State) : Option (Nat × CoreApi × State) :=
  match s.symbols with
  | none => some (1, api, s)
  | some loaded =>
    if k.sym ∉ loaded then none
    else
      match k.create id (real k.real) o s.code with
      | (none, code) => some (1, api, { s with code := code })
      | (some a, code) =>
        if Sym.getStubFunction ∉ loaded then none
        else some (0, api.set a k, { s with code := code })

/-- `plugin_stub_setup` from the stubs `ks` on, `n` stubs made. -/
def setupFrom (real : Real → Addr) (id : BitVec 32) (o : Stub → JitOutcome) :
    List Stub → Nat → CoreApi → State → Option (Nat × CoreApi × State)
  | [], _, api, s => some (0, { api with
      publish := some (real .busPublish), getPluginId := some (real .pluginGetPId) }, s)
  | k :: ks, n, api, s =>
    match pluginStub real id k (o k) api s with
    | none => none
    | some (r, api, s) => if r ≠ 0 then some (n + 1, api, s) else setupFrom real id o ks (n + 1) api s

/-- `plugin_stub_setup`. -/
def pluginStubSetup (real : Real → Addr) (id : BitVec 32) (o : Stub → JitOutcome) :
    CoreApi → State → Option (Nat × CoreApi × State) :=
  setupFrom real id o Stub.all 0

/-! ## Runs -/

inductive Label where
  | jitInit (o : LoadOutcome)
  | jitCleanup
  | setup (id : BitVec 32) (o : Stub → JitOutcome)

/-- The addresses that the JIT answers with. -/
def addrs (o : Stub → JitOutcome) (ks : List Stub) : List Addr := ks.filterMap fun k => (o k).lookup

/-- The JIT puts code where there is none. -/
structure Fresh (real : Real → Addr) (s : State) (o : Stub → JitOutcome) : Prop where
  apart : (addrs o Stub.all).Nodup
  code : ∀ a ∈ addrs o Stub.all, a ∉ s.code.map Prod.fst
  real : ∀ a ∈ addrs o Stub.all, ∀ f ∈ Real.all, real f ≠ a

-- The bound variables range over lists here, not over all addresses.
instance (real : Real → Addr) (s : State) (o : Stub → JitOutcome) : Decidable (Fresh real s o) :=
  decidable_of_iff
    ((addrs o Stub.all).Nodup ∧
      ((addrs o Stub.all).all fun a => decide (a ∉ s.code.map Prod.fst)) = true ∧
      ((addrs o Stub.all).all fun a => Real.all.all fun f => decide (real f ≠ a)) = true) (by
    simp only [List.all_eq_true, decide_eq_true_eq]
    exact ⟨fun h => ⟨h.1, h.2.1, h.2.2⟩, fun h => ⟨h.apart, h.code, h.real⟩⟩)

/-- A step; a setup that calls through NULL is none. -/
def step (real : Real → Addr) (a : Label) (s : State) : Option State :=
  match a with
  | .jitInit o => some (llvmJitInit o s)
  | .jitCleanup => some (llvmJitCleanup s)
  | .setup id o =>
    if Fresh real s o then
      (pluginStubSetup real id o CoreApi.zero s).map fun r =>
        { r.2.2 with clients := r.2.2.clients ++ [⟨id, r.2.1, r.1⟩] }
    else none

def loader (real : Real → Addr) : Machine State Label := ⟨step real⟩

/-- The arguments that a plugin passes to the stub. -/
def Stub.params : Stub → List Ty
  | .eventBusSubscribe | .hkGetField | .hkSetField => [.ptr, .ptr, .ptr]
  | .schedulerEvery | .schedulerAfter => [.i64, .ptr, .ptr]
  | .schedulerCancel => [.i32]

/-- A call through a pointer of type `ty`. -/
def invoke {m : Type → Type} [Monad m] (D : Daemon m) (s : State) (ty : FnType) (p : Option Addr)
    (args : List Val) : OptionT m Val :=
  match p with
  | none => failure
  | some a =>
    match s.code.lookup a with
    | some f => if f.ty = ty then f.run D.world args else failure
    | none => Ssa.callNative D.world ty (.ptr a) args

/-! ## One stub -/

theorem Stub.mem_all (k : Stub) : k ∈ Stub.all := by
  cases k <;> decide

@[simp] theorem CoreApi.get_zero (k : Stub) : CoreApi.zero.get k = none := by
  cases k <;> rfl

@[simp] theorem CoreApi.get_set_self (api : CoreApi) (a : Addr) (k : Stub) :
    (api.set a k).get k = some a := by
  cases k <;> rfl

theorem CoreApi.get_set_ne (api : CoreApi) (a : Addr) {k l : Stub} (h : l ≠ k) :
    (api.set a k).get l = api.get l := by
  cases k <;> cases l <;> first | rfl | exact absurd rfl h

/-- The name of the function that the JIT compiles. -/
def Stub.name : Stub → String
  | .eventBusSubscribe => "api_subscribe_stub"
  | .schedulerEvery => "api_scheduler_every_ms_stub"
  | .schedulerAfter => "api_scheduler_after_ms_stub"
  | .schedulerCancel => "api_scheduler_cancel_stub"
  | .hkGetField => "api_get_field_stub"
  | .hkSetField => "api_set_field_stub"

/-- The compiled function. -/
def Stub.fn (k : Stub) (id : BitVec 32) (realFn : Addr) : Fn :=
  forward k.name k.params .i32 [.i32 id] realFn

/-- The JIT makes the stub. -/
def JitOutcome.Ok (o : JitOutcome) : Prop := o.create = true ∧ o.addIRModule = true ∧ o.lookup ≠ none

instance (o : JitOutcome) : Decidable o.Ok := inferInstanceAs (Decidable (_ ∧ _ ∧ _))

theorem Stub.create_eq (k : Stub) (id : BitVec 32) (realFn : Addr) (o : JitOutcome)
    (code : List (Addr × Fn)) :
    k.create id realFn o code = compile (k.fn id realFn) k.name o code := by
  cases k <;> rfl

theorem compile_ok {f : Fn} {symbol : String} {o : JitOutcome} {a : Addr} (hf : f.name = symbol)
    (ho : o.Ok) (ha : o.lookup = some a) (code : List (Addr × Fn)) :
    compile f symbol o code = (some a, (a, f) :: code) := by
  simp [compile, hf, ho.1, ho.2.1, ha]

theorem compile_failed {f : Fn} {symbol : String} {o : JitOutcome} (ho : ¬ o.Ok)
    (code : List (Addr × Fn)) : compile f symbol o code = (none, code) := by
  unfold compile
  split
  · rfl
  split
  · rfl
  split
  · rfl
  rename_i hc ha hn
  cases hl : o.lookup with
  | none => rfl
  | some a =>
    exact absurd ⟨Bool.eq_true_of_not_eq_false hc, Bool.eq_true_of_not_eq_false ha, by simp [hl]⟩ ho

/-- **A stub does what the function behind it does**, called with the id of the plugin. -/
theorem fn_run {m : Type → Type} [Monad m] [LawfulMonad m] (D : Daemon m) (k : Stub)
    (id : BitVec 32) {args : List Val} (hargs : args.map Val.ty = k.params) :
    (k.fn id (D.addr k.real)).run D.world args =
      OptionT.lift (Subtype.val <$> D.run k.real (.i32 id :: args)) := by
  have hworld : D.world (D.addr k.real) = some ⟨k.real.ty, D.run k.real⟩ := by
    unfold Daemon.world
    have hfind : (Real.all.find? fun f => D.addr f = D.addr k.real) = some k.real := by
      cases hf : Real.all.find? fun f => decide (D.addr f = D.addr k.real) with
      | none =>
        have := List.find?_eq_none.mp hf k.real (Real.mem_all _)
        simp at this
      | some f =>
        have := List.find?_some hf
        rw [D.addr_inj f k.real (by simpa using this)]
    rw [hfind, Option.map_some]
  refine Ssa.forward_run hworld ?_ hargs
  cases k <;> rfl

/-! ## A setup -/

/-- What a setup that has made the stubs `made` has done to the interface. -/
def CoreApi.fill (o : Stub → JitOutcome) : List Stub → CoreApi → CoreApi
  | [], api => api
  | k :: ks, api => CoreApi.fill o ks (((o k).lookup.map (api.set · k)).getD api)

/-- The code of the stubs. -/
def codeOf (real : Real → Addr) (id : BitVec 32) (o : Stub → JitOutcome) (ks : List Stub) :
    List (Addr × Fn) :=
  ks.filterMap fun k => (o k).lookup.map fun a => (a, k.fn id (real k.real))

/-- The stubs that a setup makes: those in front of the first that fails. -/
def made (o : Stub → JitOutcome) (ks : List Stub) : List Stub := ks.takeWhile fun k => (o k).Ok

/-- The two pointers to functions of the daemon itself. -/
def CoreApi.finish (real : Real → Addr) (api : CoreApi) : CoreApi :=
  { api with publish := some (real .busPublish), getPluginId := some (real .pluginGetPId) }

theorem made_cons_ok {o : Stub → JitOutcome} {k : Stub} (h : (o k).Ok) (ks : List Stub) :
    made o (k :: ks) = k :: made o ks := by
  simp [made, h]

theorem codeOf_cons (real : Real → Addr) (id : BitVec 32) {o : Stub → JitOutcome} {k : Stub}
    {a : Addr} (h : (o k).lookup = some a) (ks : List Stub) :
    codeOf real id o (k :: ks) = (a, k.fn id (real k.real)) :: codeOf real id o ks := by
  simp [codeOf, h]

theorem made_cons_failed {o : Stub → JitOutcome} {k : Stub} (h : ¬ (o k).Ok) (ks : List Stub) :
    made o (k :: ks) = [] := by
  simp [made, h]

theorem ok_of_mem_made {o : Stub → JitOutcome} {ks : List Stub} {k : Stub} (h : k ∈ made o ks) :
    (o k).Ok := by
  simpa using List.mem_takeWhile_imp h

theorem made_initial (o : Stub → JitOutcome) (ks : List Stub) : made o ks <+: ks :=
  List.takeWhile_prefix _

/-- One stub, while the symbols are loaded. -/
theorem pluginStub_loaded (real : Real → Addr) (id : BitVec 32) (k : Stub) (o : JitOutcome)
    (api : CoreApi) {s : State} (hs : s.symbols = some Sym.all) :
    pluginStub real id k o api s =
      if o.Ok then
        some (0, (o.lookup.map (api.set · k)).getD api, { s with
          code := (o.lookup.map fun a => (a, k.fn id (real k.real))).toList ++ s.code })
      else some (1, api, s) := by
  obtain ⟨dl, symbols, opened, closed, code, clients⟩ := s
  dsimp only at hs
  subst hs
  unfold pluginStub
  dsimp only
  rw [if_neg (not_not_intro (Sym.mem_all _)), Stub.create_eq]
  by_cases ho : o.Ok
  · obtain ⟨a, ha⟩ := Option.ne_none_iff_exists'.mp ho.2.2
    rw [if_pos ho, compile_ok (show _ = k.name from rfl) ho ha, ha]
    dsimp only
    rw [if_neg (not_not_intro (Sym.mem_all _))]
    rfl
  · rw [if_neg ho, compile_failed ho]

/-- **What `plugin_stub_setup` does** while the symbols are loaded: it makes the stubs up to the first
that fails. -/
theorem setupFrom_loaded (real : Real → Addr) (id : BitVec 32) (o : Stub → JitOutcome)
    (ks : List Stub) (n : Nat) (api : CoreApi) {s : State} (hs : s.symbols = some Sym.all) :
    setupFrom real id o ks n api s =
      some (if made o ks = ks then 0 else n + (made o ks).length + 1,
        if made o ks = ks then (api.fill o ks).finish real else api.fill o (made o ks),
        { s with code := (codeOf real id o (made o ks)).reverse ++ s.code }) := by
  induction ks generalizing n api s with
  | nil => rfl
  | cons k ks ih =>
    rw [setupFrom, pluginStub_loaded real id k (o k) api hs]
    by_cases ho : (o k).Ok
    · obtain ⟨a, ha⟩ := Option.ne_none_iff_exists'.mp ho.2.2
      have hrest := ih (n + 1) (api.set a k)
        (s := { s with code := (a, k.fn id (real k.real)) :: s.code }) hs
      simp only [ho, if_true, ha, Option.map_some, Option.getD_some, Option.toList_some,
        List.singleton_append, ne_eq, not_true_eq_false, if_false, hrest, made_cons_ok ho,
        List.cons.injEq, true_and, CoreApi.fill, codeOf_cons real id ha, List.reverse_cons,
        List.append_assoc, List.length_cons]
      simp only [Nat.add_assoc, Nat.add_comm 1]
    · rw [made_cons_failed ho]
      simp [ho, CoreApi.fill, codeOf]

theorem setupFrom_unloaded (real : Real → Addr) (id : BitVec 32) (o : Stub → JitOutcome) (k : Stub)
    (ks : List Stub) (n : Nat) (api : CoreApi) {s : State} (hs : s.symbols = none) :
    setupFrom real id o (k :: ks) n api s = some (n + 1, api, s) := by
  simp [setupFrom, pluginStub, hs]

theorem get_fill {o : Stub → JitOutcome} {ks : List Stub} (h : ∀ k ∈ ks, (o k).Ok) (api : CoreApi)
    (l : Stub) : (api.fill o ks).get l = if l ∈ ks then (o l).lookup else api.get l := by
  induction ks generalizing api with
  | nil => rfl
  | cons k ks ih =>
    obtain ⟨a, ha⟩ := Option.ne_none_iff_exists'.mp (h k List.mem_cons_self).2.2
    rw [CoreApi.fill, ih (fun j hj => h j (List.mem_cons_of_mem _ hj)), ha]
    by_cases hl : l ∈ ks
    · rw [if_pos hl, if_pos (List.mem_cons_of_mem _ hl)]
    · rw [if_neg hl, Option.map_some, Option.getD_some]
      by_cases hlk : l = k
      · rw [hlk, if_pos List.mem_cons_self, CoreApi.get_set_self, ha]
      · rw [CoreApi.get_set_ne _ _ hlk, if_neg fun hm => (List.mem_cons.mp hm).elim hlk hl]

@[simp] theorem get_finish (real : Real → Addr) (api : CoreApi) (l : Stub) :
    (api.finish real).get l = api.get l := by
  cases l <;> rfl

/-! ## The invariant -/

/-- The pointers of a plugin that lead to stubs. -/
def Client.stubs (c : Client) : List Addr := Stub.all.filterMap c.coreApi.get

/-- The stub is one of those that the setup has made, by what it returned. -/
def Client.Made (c : Client) (k : Stub) : Prop := c.ret = 0 ∨ Stub.all.idxOf k + 1 < c.ret

instance (c : Client) (k : Stub) : Decidable (c.Made k) := inferInstanceAs (Decidable (_ ∨ _))

/-- The symbols are all there while the library is open; each handle of it is closed once. Every
pointer of a plugin leads to the code that was made for it. -/
structure Inv (real : Real → Addr) (s : State) : Prop where
  library : s.symbols = if s.dl.isSome then some Sym.all else none
  opened : s.closed ++ s.dl.toList = List.range s.opened
  code : (s.code.map Prod.fst).Nodup
  apart : ∀ a ∈ s.code.map Prod.fst, ∀ f, real f ≠ a
  stubs : ∀ c ∈ s.clients, ∀ k a, c.coreApi.get k = some a → (a, k.fn c.id (real k.real)) ∈ s.code
  made : ∀ c ∈ s.clients, ∀ k, (c.coreApi.get k).isSome ↔ c.Made k
  direct : ∀ c ∈ s.clients, c.ret = 0 →
    c.coreApi.publish = some (real .busPublish) ∧ c.coreApi.getPluginId = some (real .pluginGetPId)
  pointers : (s.clients.flatMap Client.stubs).Nodup

theorem inv_init (real : Real → Addr) : Inv real init where
  library := rfl
  opened := rfl
  code := List.nodup_nil
  apart := nofun
  stubs := nofun
  made := nofun
  direct := nofun
  pointers := List.nodup_nil

/-- What loading and closing the library leaves as it is. -/
theorem Inv.of_library {real : Real → Addr} {s : State} (h : Inv real s) {s' : State}
    (hcode : s'.code = s.code) (hclients : s'.clients = s.clients)
    (hlib : s'.symbols = if s'.dl.isSome then some Sym.all else none)
    (hopened : s'.closed ++ s'.dl.toList = List.range s'.opened) : Inv real s' where
  library := hlib
  opened := hopened
  code := by rw [hcode]; exact h.code
  apart := by rw [hcode]; exact h.apart
  stubs := by rw [hcode, hclients]; exact h.stubs
  made := by rw [hclients]; exact h.made
  direct := by rw [hclients]; exact h.direct
  pointers := by rw [hclients]; exact h.pointers

theorem loadSymbols_spec (o : LoadOutcome) (xs : List Sym) {l : List Sym} {s : State}
    (hs : s.symbols = some l) :
    loadSymbols o xs s = { s with symbols := some (l ++ xs) } ∨
      loadSymbols o xs s = { s with symbols := none }.close := by
  induction xs generalizing l s with
  | nil =>
    refine .inl ?_
    rw [List.append_nil, ← hs]
    rfl
  | cons x xs ih =>
    unfold loadSymbols
    split
    · exact .inr rfl
    · have hx : s.symbols.map (· ++ [x]) = some (l ++ [x]) := by rw [hs]; rfl
      rcases ih (s := { s with symbols := s.symbols.map (· ++ [x]) }) hx with h | h
      · exact .inl (by rw [h, List.append_assoc]; rfl)
      · exact .inr (by rw [h])

theorem Inv.jitInit {real : Real → Addr} {s : State} (h : Inv real s) (o : LoadOutcome) :
    Inv real (llvmJitInit o s) := by
  unfold llvmJitInit
  split
  · exact h
  rename_i hsym
  have hdl : s.dl = none := by
    cases hd : s.dl with
    | none => rfl
    | some n =>
      have hlib := h.library
      rw [hd, Option.isSome_some, if_pos rfl] at hlib
      exact absurd (hlib.symm.trans (not_not.mp hsym)) nofun
  have hopened : s.closed = List.range s.opened := by
    have := h.opened
    rwa [hdl, Option.toList_none, List.append_nil] at this
  split
  · exact h.of_library rfl rfl (not_not.mp hsym) (by simpa using hopened)
  dsimp only
  split
  · exact h.of_library rfl rfl (not_not.mp hsym)
      (by simp [State.close, hopened, List.range_succ])
  · rcases loadSymbols_spec o Sym.all (l := [])
      (s := { s with dl := some s.opened, opened := s.opened + 1, symbols := some [] }) rfl with e | e
    · rw [e]
      exact h.of_library rfl rfl rfl (by simp [hopened, List.range_succ])
    · rw [e]
      exact h.of_library rfl rfl rfl (by simp [State.close, hopened, List.range_succ])

theorem Inv.jitCleanup {real : Real → Addr} {s : State} (h : Inv real s) :
    Inv real (llvmJitCleanup s) := by
  unfold llvmJitCleanup
  split
  · exact h.of_library rfl rfl rfl (by simpa [State.close] using h.opened)
  · rename_i hd
    exact h.of_library rfl rfl (by rw [if_neg hd]) h.opened

/-! ## The setup keeps it -/

theorem codeOf_fst (real : Real → Addr) (id : BitVec 32) (o : Stub → JitOutcome) (ks : List Stub) :
    (codeOf real id o ks).map Prod.fst = addrs o ks := by
  induction ks with
  | nil => rfl
  | cons k ks ih =>
    cases h : (o k).lookup with
    | none => simpa [codeOf, addrs, h] using ih
    | some a => simpa [codeOf, addrs, h] using ih

theorem addrs_sublist {o : Stub → JitOutcome} {ks ls : List Stub} (h : ks <+: ls) :
    (addrs o ks).Sublist (addrs o ls) := h.sublist.filterMap _

theorem mem_prefix_iff {ms ks : List Stub} (h : ms <+: ks) {k : Stub} (hk : k ∈ ks) :
    k ∈ ms ↔ ms = ks ∨ ks.idxOf k < ms.length := by
  have htake : k ∈ ms ↔ ks.idxOf k < ms.length := by
    rw [← List.mem_take_iff_idxOf_lt hk, ← List.prefix_iff_eq_take.mp h]
  rw [htake]
  constructor
  · exact .inr
  · rintro (rfl | hlt)
    · exact htake.mp hk
    · exact hlt

/-- The plugin of a setup that made the stubs `ms`. -/
def Client.ofMade (real : Real → Addr) (id : BitVec 32) (o : Stub → JitOutcome) (ms : List Stub) :
    Client where
  id := id
  coreApi :=
    if ms = Stub.all then (CoreApi.zero.fill o ms).finish real else CoreApi.zero.fill o ms
  ret := if ms = Stub.all then 0 else ms.length + 1

theorem ofMade_get (real : Real → Addr) (id : BitVec 32) {o : Stub → JitOutcome} {ms : List Stub}
    (hok : ∀ k ∈ ms, (o k).Ok) (k : Stub) :
    (Client.ofMade real id o ms).coreApi.get k = if k ∈ ms then (o k).lookup else none := by
  unfold Client.ofMade
  rw [← CoreApi.get_zero k, ← get_fill hok]
  split
  · rw [get_finish]
  · rfl

theorem ofMade_made (real : Real → Addr) (id : BitVec 32) (o : Stub → JitOutcome) {ms : List Stub}
    (hms : ms <+: Stub.all) (k : Stub) : (Client.ofMade real id o ms).Made k ↔ k ∈ ms := by
  rw [mem_prefix_iff hms (Stub.mem_all k)]
  unfold Client.Made Client.ofMade
  split
  · rename_i he
    simp [he]
  · rename_i he
    simp [he]

theorem ofMade_stubs (real : Real → Addr) (id : BitVec 32) {o : Stub → JitOutcome} {ms : List Stub}
    (hms : ms <+: Stub.all) (hok : ∀ k ∈ ms, (o k).Ok) :
    (Client.ofMade real id o ms).stubs = addrs o ms := by
  unfold Client.stubs
  rw [funext (ofMade_get real id hok)]
  obtain ⟨rest, hrest⟩ := hms
  have hnodup : (ms ++ rest).Nodup := by
    rw [hrest]
    decide
  have hout : rest.filterMap (fun k => if k ∈ ms then (o k).lookup else none) = [] := by
    refine List.filterMap_eq_nil_iff.mpr fun k hk => if_neg fun hm => ?_
    exact (List.disjoint_of_nodup_append hnodup) hm hk
  rw [← hrest, List.filterMap_append, hout, List.append_nil]
  exact List.filterMap_congr fun k hk => if_pos hk

theorem pluginStubSetup_loaded (real : Real → Addr) (id : BitVec 32) (o : Stub → JitOutcome)
    {s : State} (hs : s.symbols = some Sym.all) :
    pluginStubSetup real id o CoreApi.zero s =
      some ((Client.ofMade real id o (made o Stub.all)).ret,
        (Client.ofMade real id o (made o Stub.all)).coreApi,
        { s with code := (codeOf real id o (made o Stub.all)).reverse ++ s.code }) := by
  unfold pluginStubSetup Client.ofMade
  rw [setupFrom_loaded real id o Stub.all 0 CoreApi.zero hs, Nat.zero_add]
  split
  · rename_i he
    rw [he]
  · rfl

/-- **A setup goes through**, without a call through NULL. -/
theorem setup_goes {real : Real → Addr} {s : State} (h : Inv real s) (id : BitVec 32)
    (o : Stub → JitOutcome) :
    ∃ ms, ms <+: Stub.all ∧ (∀ k ∈ ms, (o k).Ok) ∧
      pluginStubSetup real id o CoreApi.zero s =
        some ((Client.ofMade real id o ms).ret, (Client.ofMade real id o ms).coreApi,
          { s with code := (codeOf real id o ms).reverse ++ s.code }) := by
  have hlib := h.library
  split at hlib
  · exact ⟨made o Stub.all, made_initial o _, fun k => ok_of_mem_made,
      pluginStubSetup_loaded real id o hlib⟩
  · exact ⟨[], List.nil_prefix, nofun, setupFrom_unloaded real id o _ _ _ _ hlib⟩

theorem ofMade_ret (real : Real → Addr) (id : BitVec 32) (o : Stub → JitOutcome) :
    (Client.ofMade real id o (made o Stub.all)).ret =
      Plugin.pluginStubSetup fun i => Stub.all[i]?.any fun k => decide (o k).Ok := by
  have hrange : List.range 6 = [0, 1, 2, 3, 4, 5] := rfl
  unfold Client.ofMade Plugin.pluginStubSetup made
  generalize hok : (fun k => decide (o k).Ok) = ok
  rw [hrange]
  simp only [Stub.all]
  cases h₀ : ok .eventBusSubscribe with
  | false => simp [h₀]
  | true =>
    cases h₁ : ok .schedulerEvery with
    | false => simp [h₀, h₁]
    | true =>
      cases h₂ : ok .schedulerAfter with
      | false => simp [h₀, h₁, h₂]
      | true =>
        cases h₃ : ok .schedulerCancel with
        | false => simp [h₀, h₁, h₂, h₃]
        | true =>
          cases h₄ : ok .hkGetField with
          | false => simp [h₀, h₁, h₂, h₃, h₄]
          | true => cases h₅ : ok .hkSetField <;> simp [h₀, h₁, h₂, h₃, h₄, h₅]

/-- **The outcome that a load sees.** With the library open a stub can be made if the JIT makes it,
else none can. -/
theorem pluginStubSetup_refines {real : Real → Addr} {s : State} (h : Inv real s) (id : BitVec 32)
    (o : Stub → JitOutcome) :
    ∃ r, pluginStubSetup real id o CoreApi.zero s = some r ∧
      r.1 = Plugin.pluginStubSetup fun i => s.dl.isSome && Stub.all[i]?.any fun k => decide (o k).Ok := by
  have hlib := h.library
  split at hlib
  · rename_i hdl
    simp only [hdl, Bool.true_and]
    exact ⟨_, pluginStubSetup_loaded real id o hlib, ofMade_ret real id o⟩
  · rename_i hdl
    simp only [hdl, Bool.false_and]
    exact ⟨_, setupFrom_unloaded real id o _ _ _ _ hlib, rfl⟩

/-- The state after a setup that made the stubs `ms`. -/
def State.withStubs (s : State) (real : Real → Addr) (id : BitVec 32) (o : Stub → JitOutcome)
    (ms : List Stub) : State :=
  { s with
    code := (codeOf real id o ms).reverse ++ s.code
    clients := s.clients ++ [Client.ofMade real id o ms] }

theorem withStubs_addrs (s : State) (real : Real → Addr) (id : BitVec 32) (o : Stub → JitOutcome)
    (ms : List Stub) :
    (s.withStubs real id o ms).code.map Prod.fst = (addrs o ms).reverse ++ s.code.map Prod.fst := by
  rw [State.withStubs, List.map_append, List.map_reverse, codeOf_fst]

@[simp] theorem withStubs_symbols (s : State) (real : Real → Addr) (id : BitVec 32)
    (o : Stub → JitOutcome) (ms : List Stub) : (s.withStubs real id o ms).symbols = s.symbols := rfl

@[simp] theorem withStubs_clients (s : State) (real : Real → Addr) (id : BitVec 32)
    (o : Stub → JitOutcome) (ms : List Stub) :
    (s.withStubs real id o ms).clients = s.clients ++ [Client.ofMade real id o ms] := rfl

theorem step_setup {real : Real → Addr} {s : State} {i : BitVec 32} {o : Stub → JitOutcome}
    (hs : s.symbols = some Sym.all) (hfresh : Fresh real s o) :
    step real (.setup i o) s = some (s.withStubs real i o (made o Stub.all)) := by
  simp only [step]
  rw [if_pos hfresh, pluginStubSetup_loaded real i o hs]
  rfl

theorem stubs_in_code {real : Real → Addr} {s : State} (h : Inv real s) {a : Addr}
    (ha : a ∈ s.clients.flatMap Client.stubs) : a ∈ s.code.map Prod.fst := by
  obtain ⟨c, hc, ha⟩ := List.mem_flatMap.mp ha
  obtain ⟨k, -, hk⟩ := List.mem_filterMap.mp ha
  exact List.mem_map.mpr ⟨_, h.stubs c hc k a hk, rfl⟩

theorem Inv.setup {real : Real → Addr} {s : State} (h : Inv real s) {id : BitVec 32}
    {o : Stub → JitOutcome} {ms : List Stub} (hfresh : Fresh real s o) (hms : ms <+: Stub.all)
    (hok : ∀ k ∈ ms, (o k).Ok) :
    Inv real (s.withStubs real id o ms) := by
  unfold State.withStubs
  have hsub := addrs_sublist (o := o) hms
  have hfst : ((codeOf real id o ms).reverse ++ s.code).map Prod.fst =
      (addrs o ms).reverse ++ s.code.map Prod.fst := withStubs_addrs s real id o ms
  refine ⟨h.library, h.opened, ?_, ?_, ?_, ?_, ?_, ?_⟩
  · dsimp only
    rw [hfst]
    refine List.Nodup.append (List.nodup_reverse.mpr (hfresh.apart.sublist hsub)) h.code ?_
    exact fun a ha => hfresh.code a (hsub.subset (List.mem_reverse.mp ha))
  · dsimp only
    rw [hfst]
    intro a ha f
    rcases List.mem_append.mp ha with ha | ha
    · exact hfresh.real a (hsub.subset (List.mem_reverse.mp ha)) f (Real.mem_all f)
    · exact h.apart a ha f
  · intro c hc k a ha
    rcases List.mem_append.mp hc with hc | hc
    · exact List.mem_append_right _ (h.stubs c hc k a ha)
    · obtain rfl := List.mem_singleton.mp hc
      rw [ofMade_get real id hok] at ha
      split at ha
      · rename_i hk
        refine List.mem_append_left _ (List.mem_reverse.mpr (List.mem_filterMap.mpr ⟨k, hk, ?_⟩))
        rw [ha]
        rfl
      · cases ha
  · intro c hc k
    rcases List.mem_append.mp hc with hc | hc
    · exact h.made c hc k
    · obtain rfl := List.mem_singleton.mp hc
      rw [ofMade_get real id hok, ofMade_made real id o hms]
      split
      · rename_i hk
        exact iff_of_true (Option.isSome_iff_ne_none.mpr (hok k hk).2.2) hk
      · rename_i hk
        exact iff_of_false nofun hk
  · intro c hc hret
    rcases List.mem_append.mp hc with hc | hc
    · exact h.direct c hc hret
    · obtain rfl := List.mem_singleton.mp hc
      unfold Client.ofMade at hret ⊢
      dsimp only at hret ⊢
      split
      · exact ⟨rfl, rfl⟩
      · rename_i hne
        rw [if_neg hne] at hret
        cases hret
  · dsimp only
    rw [List.flatMap_append, List.flatMap_singleton, ofMade_stubs real id hms hok]
    refine List.Nodup.append h.pointers (hfresh.apart.sublist hsub) ?_
    exact fun a hold hnew => hfresh.code a (hsub.subset hnew) (stubs_in_code h hold)

theorem inv_keeps (real : Real → Addr) : (loader real).Keeps (fun _ _ => True) (Inv real) := by
  rintro s a s' h - hs
  cases a with
  | jitInit o =>
    cases hs
    exact h.jitInit o
  | jitCleanup =>
    cases hs
    exact h.jitCleanup
  | setup id o =>
    obtain ⟨ms, hms, hok, hsetup⟩ := setup_goes h id o
    simp only [loader, step] at hs
    split at hs
    · rename_i hfresh
      rw [hsetup] at hs
      cases hs
      exact h.setup hfresh hms hok
    · cases hs

/-! ## Result -/

theorem lookup_of_mem {code : List (Addr × Fn)} (hn : (code.map Prod.fst).Nodup) {a : Addr} {f : Fn}
    (h : (a, f) ∈ code) : code.lookup a = some f := by
  induction code with
  | nil => cases h
  | cons p code ih =>
    obtain ⟨b, g⟩ := p
    rw [List.map_cons, List.nodup_cons] at hn
    rcases List.mem_cons.mp h with he | h
    · cases he
      simp
    · have hne : a ≠ b := fun e => hn.1 (e ▸ List.mem_map.mpr ⟨_, h, rfl⟩)
      rw [List.lookup_cons, beq_false_of_ne hne]
      exact ih hn.2 h

/-- **Every call under the plugin's own id.** After any sequence of setups of plugins, each failing
anywhere, and of openings and closings of the generator's library, before and between them: no setup
ever calls through a symbol that is not loaded, and each opened handle of the library is closed once.
If the setup of a plugin returned 0, or went beyond the stub `k`, the plugin's call through the pointer
for `k` is the call of the daemon's function with the plugin's id, same value and same effects;
the other pointers are NULL. No two pointers, of one plugin or two, lead to the same stub. -/
theorem stubs_call_own {m : Type → Type} [Monad m] [LawfulMonad m] (D : Daemon m) (as : List Label)
    (s : State) (hr : (loader D.addr).run as init = some s) :
    (∀ id o, Fresh D.addr s o → (loader D.addr).Enabled (.setup id o) s) ∧
      s.closed ++ s.dl.toList = List.range s.opened ∧
      (∀ c ∈ s.clients, ∀ k,
        (c.Made k → ∀ args, args.map Val.ty = k.params →
          invoke D s ⟨k.params, .i32⟩ (c.coreApi.get k) args =
            OptionT.lift (Subtype.val <$> D.run k.real (.i32 c.id :: args))) ∧
        (¬ c.Made k → c.coreApi.get k = none)) ∧
      (s.clients.flatMap Client.stubs).Nodup := by
  have h : Inv D.addr s := (inv_keeps D.addr).run_all (inv_init D.addr) hr
  refine ⟨fun id o hfresh => ?_, h.opened, fun c hc k => ⟨fun hm args hargs => ?_, fun hm => ?_⟩,
    h.pointers⟩
  · obtain ⟨ms, -, -, hsetup⟩ := setup_goes h id o
    unfold Machine.Enabled
    simp only [loader, step]
    rw [if_pos hfresh, hsetup]
    exact ⟨_, rfl⟩
  · obtain ⟨a, ha⟩ := Option.isSome_iff_exists.mp ((h.made c hc k).mpr hm)
    have hcode := lookup_of_mem h.code (h.stubs c hc k a ha)
    rw [ha]
    simp only [invoke, hcode]
    rw [if_pos (show (k.fn c.id (D.addr k.real)).ty = ⟨k.params, .i32⟩ from rfl),
      fn_run D k c.id hargs]
  · exact Option.not_isSome_iff_eq_none.mp fun hs => hm ((h.made c hc k).mp hs)

/-- The daemon with the `scheduler_cancel` of the scheduler; its other functions refuse. -/
def cancelDaemon : Daemon (StateM Scheduler.State) where
  addr f := match f with
    | .busSubscribe => 1
    | .schedulerEveryMs => 2
    | .schedulerAfterMs => 3
    | .schedulerCancel => 4
    | .hkGetField => 5
    | .hkSetField => 6
    | .busPublish => 7
    | .pluginGetPId => 8
  addr_inj f g := by cases f <;> cases g <;> decide
  run f args s := match f, args with
    | .schedulerCancel, [.i32 p, .i32 id] =>
      ((⟨.i32 (BitVec.ofInt 32 (Scheduler.schedulerCancel p.toNat id.toInt s).1), rfl⟩,
        (Scheduler.schedulerCancel p.toNat id.toInt s).2))
    | f, _ => (⟨.i32 (-1), by cases f <;> rfl⟩, s)

/-- The JIT puts the stubs of a plugin behind `base`. -/
def placed (base : Addr) (k : Stub) : JitOutcome :=
  ⟨true, true, some (base + match k with
    | .eventBusSubscribe => 0
    | .schedulerEvery => 1
    | .schedulerAfter => 2
    | .schedulerCancel => 3
    | .hkGetField => 4
    | .hkSetField => 5)⟩

/-- The start of the daemon with two plugins, and the library closed behind it. -/
def twoPlugins : List Label :=
  [.jitInit ⟨true, true, fun _ => true⟩, .setup 3 (placed 100), .setup 4 (placed 200), .jitCleanup]

/-- The second plugin cancels a timer: the scheduler is asked under its id. -/
theorem stubs_call_own_twoPlugins :
    ∃ s, (loader cancelDaemon.addr).run twoPlugins init = some s ∧
      invoke cancelDaemon s ⟨[.i32], .i32⟩ (some 203) [.i32 7] =
        OptionT.lift (Subtype.val <$> cancelDaemon.run .schedulerCancel [.i32 4, .i32 7]) := by
  have hmade : ∀ b, made (placed b) Stub.all = Stub.all := fun b => rfl
  obtain ⟨s₀, h₀⟩ : ∃ s : State, s = { init with dl := some 0, symbols := some Sym.all, opened := 1 } :=
    ⟨_, rfl⟩
  have hfresh₀ : Fresh cancelDaemon.addr s₀ (placed 100) := by
    rw [h₀]
    decide +kernel
  obtain ⟨s₁, h₁⟩ : ∃ s, s = s₀.withStubs cancelDaemon.addr 3 (placed 100) Stub.all := ⟨_, rfl⟩
  have hfresh₁ : Fresh cancelDaemon.addr s₁ (placed 200) := by
    rw [h₁, h₀]
    decide +kernel
  obtain ⟨s₂, h₂⟩ : ∃ s, s = s₁.withStubs cancelDaemon.addr 4 (placed 200) Stub.all := ⟨_, rfl⟩
  have hloaded₀ : s₀.symbols = some Sym.all := by rw [h₀]
  have hloaded₁ : s₁.symbols = some Sym.all := by rw [h₁, withStubs_symbols, hloaded₀]
  have hstep₁ := step_setup (i := 3) hloaded₀ hfresh₀
  have hstep₂ := step_setup (i := 4) hloaded₁ hfresh₁
  rw [hmade, ← h₁] at hstep₁
  rw [hmade, ← h₂] at hstep₂
  have hr : (loader cancelDaemon.addr).run twoPlugins init = some (llvmJitCleanup s₂) :=
    Machine.run_cons_some.mpr ⟨s₀, congrArg some h₀.symm, Machine.run_cons_some.mpr ⟨s₁, hstep₁,
      Machine.run_cons_some.mpr ⟨s₂, hstep₂, rfl⟩⟩⟩
  have hclients : (llvmJitCleanup s₂).clients = s₂.clients := by
    unfold llvmJitCleanup
    split <;> rfl
  have hmem : Client.ofMade cancelDaemon.addr 4 (placed 200) Stub.all ∈ (llvmJitCleanup s₂).clients := by
    rw [hclients, h₂, withStubs_clients]
    exact List.mem_append_right _ List.mem_cons_self
  have h := (stubs_call_own cancelDaemon twoPlugins _ hr).2.2.1 _ hmem .schedulerCancel
  exact ⟨_, hr, h.1 (.inl rfl) [.i32 7] rfl⟩

end Stubs
end CoreCDTL
