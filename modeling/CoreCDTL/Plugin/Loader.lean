import CoreCDTL.HeapKit.Types

/-!
# The plugin loader (`plugin/plugin_loader.c`)

`plugin_load` makes a handle for a plugin directory: it reads `manifest.config`, registers the
types of `types.data`, makes the API stubs and loads the library.

* `Entry` is a directory entry with the outcome of everything that loading it depends on: the texts
  of its two files, the allocations that the code checks, the stubs, `dlopen` and `dlsym`. Those
  that it does not check (`strdup`, the `calloc`s of `plugin_data_set`) succeed.
* The libraries are numbered by the call of `plugin_load` that loaded them; a function pointer is
  the number of its library. `info.name` is the entry name of a call (`borrowed`) until a `Name`
  line of the manifest replaces it by a copy (`owned`). `Loader.badFrees` counts the borrowed names
  that the code frees.
* A write past the end of a local array or of `current_fields` faults (`none`).
* `takesId`: whether `plugin_manifest_set` takes an id from `current_id`. `pluginLoad_case`: the
  branches of a load, with what each needs (`Loads`, `Faults`). `pluginLoad_end`: the ways a load
  ends, and what each does to the globals.
-/

namespace CoreCDTL
namespace Plugin

open HeapKit (TypeInfo FieldInfo hkParseType hkTypeSize hkTypeRegister)

/-! ## Handles -/

/-- What `info.name` points to: the name of the entry that the `n`-th load got, or a copy. -/
inductive Name where
  | borrowed (n : Nat)
  | owned (text : CStr)
  deriving DecidableEq, Repr

/-- `plugin_state_t`. -/
inductive PluginState where
  | alive | stopped | killed | crashed
  deriving DecidableEq, Repr

/-- The value of the enumeration constant. -/
def PluginState.toNat : PluginState → Nat
  | alive => 0
  | stopped => 1
  | killed => 2
  | crashed => 3

/-- `plugin_info_t`. -/
structure Info where
  id : Nat
  name : Option Name
  version : Option CStr
  code : Int
  deriving DecidableEq, Repr

/-- `plugin_funcs_t`. -/
structure Funcs where
  initializeFn : Option Nat
  startFn : Option Nat
  stopFn : Option Nat
  shutdownFn : Option Nat
  deriving DecidableEq, Repr

/-- `plugin_handle_t`: `state` is `hot_meta.state`; `params`, `paramCount` and `so` are of
`cold_data`. -/
structure Handle where
  state : PluginState
  funcs : Funcs
  info : Info
  params : List (CStr × CStr)
  paramCount : Nat
  so : Option Nat
  deriving DecidableEq, Repr

/-- A handle of zero bytes, as `calloc` and `memset` make it. -/
def Handle.zero : Handle where
  state := .alive
  funcs := ⟨none, none, none, none⟩
  info := ⟨0, none, none, 0⟩
  params := []
  paramCount := 0
  so := none

/-- A directory entry and the outcome of loading it. The allocations for a line of a file are
numbered by the line. -/
structure Entry where
  isDir : Bool
  dName : CStr
  handleAlloc : Bool
  manifest : Option (List Char)
  paramAlloc : Nat → Bool
  data : Option (List Char)
  /-- The string in `struct_name` before `sscanf`. -/
  structName : Nat → CStr
  instanceAlloc : Nat → Bool
  stubs : Nat → Bool
  dlopen : Bool
  initializeSym : Bool
  startSym : Bool
  stopSym : Bool
  shutdownSym : Bool
  /-- The `realloc` of the plugin table. -/
  grow : Bool

/-! ## `plugin_manifest_set` -/

/-- The value of a `Code` line. -/
def parseCode (s : CStr) : Int :=
  let v : Int := Nat.ofDigitChars 10 (strtolParts s).2 0
  let v := if (strtolParts s).1 then -v else v
  if (strtolParts s).2 = [] then 0
  else if v < -(2 ^ 63) ∨ 2 ^ 63 - 1 < v then 0
  else v.bmod (2 ^ 32)

/-- A new entry of `params` at `param_count`, which is a `uint8_t`. -/
def Handle.addParam (h : Handle) (key value : CStr) : Handle :=
  { h with params := h.params.take h.paramCount ++ [(key, value)]
           paramCount := (h.paramCount + 1) % 256 }

/-- A `key=value` line. -/
def Handle.setInfo (h : Handle) (key value : CStr) : Handle :=
  let key := key.dropWhile (· = ' ')
  let value := value.dropWhile (· = ' ')
  if strcaseEq key "Name".toList then { h with info.name := some (.owned value) }
  else if strcaseEq key "Version".toList then { h with info.version := some value }
  else if strcaseEq key "Code".toList then { h with info.code := parseCode value }
  else h

/-- One line of the manifest; `false` when the `realloc` of the parameters fails. -/
def manifestLine (alloc : Bool) (line : CStr) (h : Handle) : Handle × Bool :=
  if line = [] ∨ line.head? = some '#' then (h, true)
  else if "--".toList.isPrefixOf line then
    match strchr '=' (line.drop 2) with
    | none => (h, true)
    | some (key, value) => if alloc then (h.addParam key value, true) else (h, false)
  else
    match strchr '=' line with
    | none => (h, true)
    | some (key, value) => (h.setInfo key value, true)

/-- The loop over the lines, up to the first that fails. -/
def manifestLines (alloc : Nat → Bool) : Nat → List CStr → Handle → Handle × Bool
  | _, [], h => (h, true)
  | n, line :: rest, h =>
    match manifestLine (alloc n) line h with
    | (h', false) => (h', false)
    | (h', true) => manifestLines alloc (n + 1) rest h'

/-- `plugin_manifest_set`: the return value, the handle and `current_id` after it. -/
def pluginManifestSet (e : Entry) (currentId : Nat) (h : Handle) : Int × Handle × Nat :=
  match e.manifest with
  | none => (-1, h, currentId)
  | some text =>
    match manifestLines e.paramAlloc 0 ((fgetsLines 256 text).map chomp) h with
    | (h', false) => (-1, h', currentId)
    | (h', true) => (0, { h' with info.id := currentId }, (currentId + 1) % 2 ^ 32)

/-! ## `plugin_data_set` -/

/-- What a line of `types.data` does: it faults, `plugin_data_set` returns 1, or the loop goes on
with `current_type` (its fields so far) and the registry. -/
inductive DataStep where
  | fault
  | failed (hk : HeapKit.State)
  | next (currentType : Option TypeInfo) (hk : HeapKit.State)

/-- The delimiters of a `field` line. -/
def blank (c : Char) : Bool := c = ' ' || c = '\t'

/-- The field that a `field` line adds: its name and the text of its type. -/
def addField (ty : TypeInfo) (name type : CStr) : TypeInfo :=
  let (ftype, structType) := hkParseType type
  { ty with fields := ty.fields ++ [⟨name, ftype, ty.size, hkTypeSize ftype, structType⟩]
            size := ty.size + hkTypeSize ftype }

/-- A `field` line: `none` when a token does not fit its 64 bytes or the fields their block. -/
def fieldLine (ty : TypeInfo) (line : CStr) : Option TypeInfo :=
  match tokens blank (line.takeWhile (· ≠ '#')) with
  | token :: name :: rest =>
    if token ≠ "field".toList then some ty
    else if 64 ≤ name.length then none
    else
      match rest with
      | [] => some ty
      | type :: _ =>
        if 64 ≤ type.length ∨ 10 ≤ ty.fields.length then none else some (addField ty name type)
  | _ => some ty

/-- One line of `types.data`, for the plugin `pid`. -/
def dataLine (pid : Nat) (structName : CStr) (instanceAlloc : Bool) (line : CStr)
    (currentType : Option TypeInfo) (hk : HeapKit.State) : DataStep :=
  let trimmed := line.dropWhile isspace
  if line = [] ∨ line.head? = some '#' then .next currentType hk
  else if "struct".toList.isPrefixOf trimmed then
    match scanWord trimmed.length (trimmed.drop 6) with
    | none => .next (some ⟨structName, 0, []⟩) hk
    | some (name, _) => if 64 ≤ name.length then .fault else .next (some ⟨name, 0, []⟩) hk
  else
    match currentType with
    | none => .next none hk
    | some ty =>
      if "field".toList.isPrefixOf trimmed then
        match fieldLine ty trimmed with
        | none => .fault
        | some ty' => .next (some ty') hk
      else if "end".toList.isPrefixOf trimmed then
        match hkTypeRegister hk pid (some ty) instanceAlloc with
        | .error _ => .fault
        | .ok (ret, hk') => if ret ≠ 0 then .failed hk' else .next none hk'
      else .next (some ty) hk

/-- The loop over the lines: the return value and the registry, `none` for a fault. -/
def dataLines (e : Entry) (pid : Nat) :
    Nat → List CStr → Option TypeInfo → HeapKit.State → Option (Int × HeapKit.State)
  | _, [], _, hk => some (0, hk)
  | n, line :: rest, currentType, hk =>
    match dataLine pid (e.structName n) (e.instanceAlloc n) line currentType hk with
    | .fault => none
    | .failed hk' => some (1, hk')
    | .next currentType' hk' => dataLines e pid (n + 1) rest currentType' hk'

/-- `plugin_data_set`. -/
def pluginDataSet (e : Entry) (pid : Nat) (hk : HeapKit.State) : Option (Int × HeapKit.State) :=
  match e.data with
  | none => some (-1, hk)
  | some text => dataLines e pid 0 ((fgetsLines 256 text).map chomp) none hk

/-! ## `plugin_load` -/

/-- `plugin_stub_setup`: the number of the first stub that cannot be made, else 0. -/
def pluginStubSetup (stubs : Nat → Bool) : Nat :=
  match (List.range 6).find? fun i => ! stubs i with
  | some i => i + 1
  | none => 0

/-- The globals that `plugin_load` reads and writes, and the number of its calls. -/
structure Loader where
  currentId : Nat
  heapkit : HeapKit.State
  loads : Nat
  badFrees : Nat

/-- `free(info.name)`. -/
def freeName (name : Option Name) (badFrees : Nat) : Nat :=
  match name with
  | some (.borrowed _) => badFrees + 1
  | _ => badFrees

/-- `FREE_PLUGIN`. -/
def freePlugin (h : Handle) (g : Loader) : Loader :=
  { g with badFrees := freeName h.info.name g.badFrees }

/-- `plugin_load`: the handle (`none` for NULL) and the globals after it; `none` for a fault. -/
def pluginLoad (e : Entry) (g : Loader) : Option (Option Handle × Loader) :=
  let n := g.loads
  let g := { g with loads := n + 1 }
  if e.handleAlloc = false then some (none, g)
  else
    let h := { Handle.zero with info.name := some (.borrowed n) }
    match pluginManifestSet e g.currentId h with
    | (ret, h, currentId) =>
      let g := { g with currentId := currentId }
      if ret ≠ 0 then some (none, freePlugin h g)
      else
        match pluginDataSet e h.info.id g.heapkit with
        | none => none
        | some (ret, hk) =>
          let g := { g with heapkit := hk }
          if ret ≠ 0 then some (none, freePlugin h g)
          else if pluginStubSetup e.stubs ≠ 0 then some (none, freePlugin h g)
          else if e.dlopen = false then some (none, freePlugin h g)
          else
            let sym (found : Bool) : Option Nat := if found then some n else none
            let h := { h with so := some n
                              funcs := ⟨sym e.initializeSym, sym e.startSym, sym e.stopSym,
                                        sym e.shutdownSym⟩ }
            if h.funcs.initializeFn = none then some (none, freePlugin h g) else some (some h, g)

/-! ## How a load ends -/

/-- Whether `plugin_manifest_set` is called and returns 0: then it takes an id. -/
def takesId (e : Entry) : Bool :=
  e.handleAlloc && decide ((pluginManifestSet e 0 Handle.zero).1 = 0)

/-- The functions of the handle are those of the library `lib`. -/
structure Handle.OfLib (h : Handle) (lib : Nat) : Prop where
  so : h.so = some lib
  initializeFn : h.funcs.initializeFn = some lib
  startFn : ∀ n, h.funcs.startFn = some n → n = lib
  stopFn : ∀ n, h.funcs.stopFn = some n → n = lib
  shutdownFn : ∀ n, h.funcs.shutdownFn = some n → n = lib

/-- How a load ends: what it returns and the globals after it. -/
inductive LoadEnd (e : Entry) (g g' : Loader) : Option Handle → Prop
  /-- It fails before it takes an id. -/
  | early (takes : takesId e = false) (counter : g'.currentId = g.currentId)
      (heapkit : g'.heapkit = g.heapkit) (loads : g'.loads = g.loads + 1) : LoadEnd e g g' none
  | late (ret : Int) (takes : takesId e = true)
      (counter : g'.currentId = (g.currentId + 1) % 2 ^ 32)
      (data : pluginDataSet e g.currentId g.heapkit = some (ret, g'.heapkit))
      (loads : g'.loads = g.loads + 1) : LoadEnd e g g' none
  | loaded (h : Handle) (takes : takesId e = true)
      (counter : g'.currentId = (g.currentId + 1) % 2 ^ 32)
      (data : pluginDataSet e g.currentId g.heapkit = some (0, g'.heapkit))
      (loads : g'.loads = g.loads + 1)
      (id : h.info.id = g.currentId) (state : h.state = .alive) (lib : h.OfLib g.loads) :
      LoadEnd e g g' (some h)

/-- The line adds a parameter, for which it needs memory. -/
def IsParam (line : CStr) : Prop := "--".toList.isPrefixOf line = true ∧ '=' ∈ line.drop 2

/-- A `key=value` line changes the `info` of the handle at most. -/
theorem Handle.setInfo_eq (h : Handle) (key value : CStr) :
    ∃ info, h.setInfo key value = { h with info := info } := by
  unfold Handle.setInfo
  simp only
  split
  · exact ⟨_, rfl⟩
  split
  · exact ⟨_, rfl⟩
  split
  · exact ⟨_, rfl⟩
  · exact ⟨h.info, rfl⟩

theorem Handle.setInfo_state (h : Handle) (key value : CStr) :
    (h.setInfo key value).state = h.state := by
  obtain ⟨info, he⟩ := h.setInfo_eq key value
  rw [he]

/-- A manifest line fails when it adds a parameter and the `realloc` fails; otherwise it leaves the
state of the plugin alone. -/
theorem manifestLine_spec (alloc : Bool) (line : CStr) (h : Handle) :
    ((manifestLine alloc line h).2 = false ↔ alloc = false ∧ IsParam line) ∧
      (manifestLine alloc line h).1.state = h.state := by
  have hskip : line = [] ∨ line.head? = some '#' → "--".toList.isPrefixOf line = false := by
    rintro (rfl | hc)
    · rfl
    · obtain ⟨t, rfl⟩ := List.head?_eq_some_iff.mp hc
      rfl
  unfold manifestLine IsParam
  generalize "--".toList.isPrefixOf line = dashes at hskip ⊢
  split
  · rename_i h
    simp [hskip h]
  cases dashes with
  | true =>
    by_cases heq : '=' ∈ line.drop 2
    · cases alloc <;> simp [strchr, heq, Handle.addParam]
    · simp [strchr, heq]
  | false =>
    by_cases heq : '=' ∈ line
    · simp [strchr, heq, Handle.setInfo_state]
    · simp [strchr, heq]

/-- The loop over the lines fails at the first parameter without memory. -/
theorem manifestLines_spec (alloc : Nat → Bool) (n : Nat) (lines : List CStr) (h : Handle) :
    ((manifestLines alloc n lines h).2 = false ↔
        ∃ i line, lines[i]? = some line ∧ alloc (n + i) = false ∧ IsParam line) ∧
      (manifestLines alloc n lines h).1.state = h.state := by
  induction lines generalizing n h with
  | nil => simp [manifestLines]
  | cons line rest ih =>
    obtain ⟨hfail, hstate⟩ := manifestLine_spec (alloc n) line h
    unfold manifestLines
    rcases hm : manifestLine (alloc n) line h with ⟨k, _ | _⟩
    · rw [hm] at hfail hstate
      exact ⟨iff_of_true rfl ⟨0, line, rfl, hfail.mp rfl⟩, hstate⟩
    · rw [hm] at hfail hstate
      obtain ⟨hrest, hk⟩ := ih (n + 1) k
      refine ⟨hrest.trans ⟨?_, ?_⟩, hk.trans hstate⟩
      · rintro ⟨i, l, hl, ha, hp⟩
        exact ⟨i + 1, l, hl, by rw [← ha]; congr 1; omega, hp⟩
      · rintro ⟨i, l, hl, ha, hp⟩
        cases i with
        | zero =>
          cases hl
          exact absurd (hfail.mpr ⟨ha, hp⟩) (by simp)
        | succ i => exact ⟨i, l, hl, by rw [← ha]; congr 1; omega, hp⟩

/-- The manifest cannot be opened, or a parameter line finds no memory. -/
def ManifestFails (e : Entry) : Prop :=
  match e.manifest with
  | none => True
  | some text => ∃ i line, ((fgetsLines 256 text).map chomp)[i]? = some line ∧
      e.paramAlloc i = false ∧ IsParam line

/-- `plugin_manifest_set` takes the next id exactly when it returns 0. -/
theorem pluginManifestSet_spec (e : Entry) (currentId : Nat) (h : Handle) :
    ((pluginManifestSet e currentId h).1 ≠ 0 ↔ ManifestFails e) ∧
      (pluginManifestSet e currentId h).2.1.state = h.state ∧
      ((pluginManifestSet e currentId h).1 = 0 →
        (pluginManifestSet e currentId h).2.1.info.id = currentId ∧
          (pluginManifestSet e currentId h).2.2 = (currentId + 1) % 2 ^ 32) ∧
      ((pluginManifestSet e currentId h).1 ≠ 0 →
        (pluginManifestSet e currentId h).2.2 = currentId) := by
  unfold pluginManifestSet ManifestFails
  cases e.manifest with
  | none => simp
  | some text =>
    obtain ⟨hfail, hstate⟩ :=
      manifestLines_spec e.paramAlloc 0 ((fgetsLines 256 text).map chomp) h
    simp only [Nat.zero_add] at hfail
    simp only [← hfail]
    rcases hm : manifestLines e.paramAlloc 0 ((fgetsLines 256 text).map chomp) h with ⟨k, _ | _⟩ <;>
      rw [hm] at hstate <;> simpa using hstate

theorem takesId_eq_false (e : Entry) :
    takesId e = false ↔ e.handleAlloc = false ∨ ManifestFails e := by
  unfold takesId
  rw [← (pluginManifestSet_spec e 0 Handle.zero).1]
  cases e.handleAlloc <;> simp

/-- Everything that the load needs is there. -/
structure Loads (e : Entry) (g : Loader) : Prop where
  handleAlloc : e.handleAlloc = true
  manifest : ¬ ManifestFails e
  data : ∃ hk, pluginDataSet e g.currentId g.heapkit = some (0, hk)
  stubs : pluginStubSetup e.stubs = 0
  dlopen : e.dlopen = true
  initializeSym : e.initializeSym = true

/-- The load comes to a line of `types.data` that faults. -/
structure Faults (e : Entry) (g : Loader) : Prop where
  handleAlloc : e.handleAlloc = true
  manifest : ¬ ManifestFails e
  data : pluginDataSet e g.currentId g.heapkit = none

/-- The handle that `plugin_manifest_set` gets: its name is that of the entry. -/
def newHandle (g : Loader) : Handle :=
  { Handle.zero with info.name := some (.borrowed g.loads) }

/-- The handle behind `plugin_manifest_set`. -/
def manifestHandle (e : Entry) (g : Loader) : Handle :=
  (pluginManifestSet e g.currentId (newHandle g)).2.1

/-- The ways of a load through its branches. -/
inductive LoadCase (e : Entry) (g : Loader) : Option (Option Handle × Loader) → Prop
  | noHandle (alloc : e.handleAlloc = false) :
      LoadCase e g (some (none, { g with loads := g.loads + 1 }))
  | noManifest (alloc : e.handleAlloc = true) (fails : ManifestFails e) :
      LoadCase e g (some (none, { g with
        loads := g.loads + 1
        badFrees := freeName (manifestHandle e g).info.name g.badFrees }))
  | fault (faults : Faults e g) : LoadCase e g none
  /-- `types.data`, the stubs, `dlopen` or the initialize function fails. -/
  | freed (ret : Int) (hk : HeapKit.State) (alloc : e.handleAlloc = true)
      (manifest : ¬ ManifestFails e)
      (data : pluginDataSet e g.currentId g.heapkit = some (ret, hk)) (stuck : ¬ Loads e g) :
      LoadCase e g (some (none, {
        currentId := (g.currentId + 1) % 2 ^ 32
        heapkit := hk
        loads := g.loads + 1
        badFrees := freeName (manifestHandle e g).info.name g.badFrees }))
  | loaded (hk : HeapKit.State) (fn : Bool → Option Nat) (needs : Loads e g)
      (data : pluginDataSet e g.currentId g.heapkit = some (0, hk))
      (symbol : ∀ found, fn found = if found then some g.loads else none) :
      LoadCase e g (some (some { manifestHandle e g with
        so := some g.loads
        funcs := ⟨fn e.initializeSym, fn e.startSym, fn e.stopSym, fn e.shutdownSym⟩ }, { g with
          currentId := (g.currentId + 1) % 2 ^ 32
          heapkit := hk
          loads := g.loads + 1 }))

/-- **The branches of a load.** -/
theorem pluginLoad_case (e : Entry) (g : Loader) : LoadCase e g (pluginLoad e g) := by
  unfold pluginLoad
  by_cases ha : e.handleAlloc = false
  · rw [if_pos ha]
    exact .noHandle ha
  rw [if_neg ha]
  have halloc : e.handleAlloc = true := Bool.not_eq_false _ ▸ ha
  obtain ⟨hfails, -, hzero, hfail⟩ := pluginManifestSet_spec e g.currentId (newHandle g)
  rcases hm : pluginManifestSet e g.currentId (newHandle g) with ⟨ret, k, id⟩
  obtain rfl : manifestHandle e g = k := by rw [manifestHandle, hm]
  rw [hm] at hfails hzero hfail
  replace hm : pluginManifestSet e g.currentId
    { Handle.zero with info.name := some (.borrowed g.loads) } = (ret, manifestHandle e g, id) := hm
  simp only [hm]
  by_cases hret : ret ≠ 0
  · rw [if_pos hret]
    obtain rfl : id = g.currentId := hfail hret
    exact .noManifest halloc (hfails.mp hret)
  have hmanifest : ¬ ManifestFails e := fun h => hret (hfails.mpr h)
  obtain ⟨hid, hcur⟩ := hzero (not_not.mp hret)
  replace hid : (manifestHandle e g).info.id = g.currentId := hid
  obtain rfl : id = (g.currentId + 1) % 2 ^ 32 := hcur
  rw [if_neg hret, hid]
  cases hd : pluginDataSet e g.currentId g.heapkit with
  | none => exact .fault ⟨halloc, hmanifest, hd⟩
  | some p =>
    obtain ⟨ret', hk⟩ := p
    -- Each check that fails frees the handle, and then the load needs what it checks.
    have freed := LoadCase.freed ret' hk halloc hmanifest hd
    simp only
    by_cases h₁ : ret' ≠ 0
    · rw [if_pos h₁]
      refine freed fun h => h₁ ?_
      obtain ⟨hk', hd'⟩ := h.data
      cases hd.symm.trans hd'
      rfl
    rw [if_neg h₁]
    by_cases h₂ : pluginStubSetup e.stubs ≠ 0
    · rw [if_pos h₂]
      exact freed fun h => h₂ h.stubs
    rw [if_neg h₂]
    by_cases h₃ : e.dlopen = false
    · rw [if_pos h₃]
      exact freed fun h => by rw [h.dlopen] at h₃; cases h₃
    rw [if_neg h₃]
    by_cases h₄ : (if e.initializeSym then some g.loads else none) = none
    · rw [if_pos h₄]
      exact freed fun h => by rw [h.initializeSym] at h₄; cases h₄
    · rw [if_neg h₄]
      rw [not_not.mp h₁] at hd
      have hinit : e.initializeSym = true := by
        by_contra hne
        exact h₄ (if_neg hne)
      exact .loaded hk _
        ⟨halloc, hmanifest, ⟨hk, hd⟩, not_not.mp h₂, Bool.not_eq_false _ ▸ h₃, hinit⟩ hd
        fun _ => rfl

/-- The load faults in `types.data` and nowhere else. -/
theorem pluginLoad_eq_none_iff {e : Entry} {g : Loader} : pluginLoad e g = none ↔ Faults e g := by
  have hcase := pluginLoad_case e g
  constructor
  · intro h
    rw [h] at hcase
    cases hcase with
    | fault faults => exact faults
  · intro hf
    generalize pluginLoad e g = r at hcase ⊢
    cases hcase with
    | noHandle alloc => rw [hf.handleAlloc] at alloc; cases alloc
    | noManifest alloc fails => exact absurd fails hf.manifest
    | fault faults => rfl
    | freed ret hk alloc manifest data => rw [hf.data] at data; cases data
    | loaded hk fn needs data => rw [hf.data] at data; cases data

/-- What a load returns is a handle exactly when all that it needs is there. -/
theorem pluginLoad_loads_iff {e : Entry} {g : Loader} :
    (∃ h g', pluginLoad e g = some (some h, g')) ↔ Loads e g := by
  have hcase := pluginLoad_case e g
  constructor
  · rintro ⟨h, g', hl⟩
    rw [hl] at hcase
    cases hcase with
    | loaded hk fn needs => exact needs
  · intro hn
    generalize pluginLoad e g = r at hcase ⊢
    cases hcase with
    | noHandle alloc => rw [hn.handleAlloc] at alloc; cases alloc
    | noManifest alloc fails => exact absurd fails hn.manifest
    | fault faults =>
      obtain ⟨hk, hd⟩ := hn.data
      rw [faults.data] at hd
      cases hd
    | freed ret hk alloc manifest data stuck => exact absurd hn stuck
    | loaded => exact ⟨_, _, rfl⟩

/-- **The end of a load.** -/
theorem pluginLoad_end {e : Entry} {g g' : Loader} {r : Option Handle}
    (h : pluginLoad e g = some (r, g')) : LoadEnd e g g' r := by
  have takes : e.handleAlloc = true → ¬ ManifestFails e → takesId e = true := by
    intro ha hm
    rw [← Bool.not_eq_false, takesId_eq_false, ha]
    exact fun h => h.elim (fun h => by cases h) hm
  have hcase := pluginLoad_case e g
  rw [h] at hcase
  cases hcase with
  | noHandle alloc => exact .early ((takesId_eq_false e).mpr (.inl alloc)) rfl rfl rfl
  | noManifest alloc fails => exact .early ((takesId_eq_false e).mpr (.inr fails)) rfl rfl rfl
  | freed ret hk alloc manifest data => exact .late ret (takes alloc manifest) rfl data rfl
  | loaded hk fn needs data symbol =>
    obtain ⟨-, hstate, hzero, -⟩ := pluginManifestSet_spec e g.currentId (newHandle g)
    have hret : (pluginManifestSet e g.currentId (newHandle g)).1 = 0 := by
      by_contra hne
      exact needs.manifest ((pluginManifestSet_spec e g.currentId (newHandle g)).1.mp hne)
    have hsym : ∀ (found : Bool) (n : Nat), fn found = some n → n = g.loads := by
      intro found n hn
      rw [symbol] at hn
      cases found with
      | false => cases hn
      | true => cases hn; rfl
    refine .loaded _ (takes needs.handleAlloc needs.manifest) rfl data rfl (hzero hret).1 hstate
      ⟨rfl, ?_, hsym e.startSym, hsym e.stopSym, hsym e.shutdownSym⟩
    show fn e.initializeSym = some g.loads
    rw [symbol, needs.initializeSym]
    rfl

/-- A load moves `current_id` exactly when `plugin_manifest_set` takes an id, and the handle that
it returns has that id. -/
theorem pluginLoad_spec {e : Entry} {g g' : Loader} {r : Option Handle}
    (h : pluginLoad e g = some (r, g')) :
    g'.currentId = (if takesId e then (g.currentId + 1) % 2 ^ 32 else g.currentId) ∧
      ∀ k, r = some k → takesId e = true ∧ k.info.id = g.currentId := by
  cases pluginLoad_end h with
  | early takes counter =>
    rw [counter, if_neg (by simp [takes])]
    exact ⟨rfl, fun k hk => nomatch hk⟩
  | late ret takes counter =>
    rw [counter, if_pos takes]
    exact ⟨rfl, fun k hk => nomatch hk⟩
  | loaded k takes counter data loads id =>
    refine ⟨by rw [counter, if_pos takes], fun k' hk' => ?_⟩
    cases hk'
    exact ⟨takes, id⟩

end Plugin
end CoreCDTL
