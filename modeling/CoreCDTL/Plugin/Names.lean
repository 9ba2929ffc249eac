import CoreCDTL.Plugin.FailedLoad
import CoreCDTL.Plugin.Lifecycle
import CoreCDTL.Plugin.LongLines

/-!
# Who owns a plugin's name

`plugin_load` puts the name of the directory entry into `info.name`. It belongs to the directory
scan; only a `Name` line of the manifest replaces it by a copy. `FREE_PLUGIN` and
`FREE_PLUGIN_HANDLE` free whatever is there, and a stored handle is read after the scan.

* `NameRead`: a `Name` line is read before the manifest fails. It alone decides whose name the
  handle has (`manifestHandle_name`).
* `UsesName`: the entry's load comes to a use of the name: it frees the handle or the table takes
  it. A handle that the full table cannot take is freed without its name.
* `Owned`: no borrowed name was freed and none is in the table.
* `names_owned_iff`: this holds in every state, whatever the plugins' functions return, if and only
  if each name that is used was read.
-/

namespace CoreCDTL
namespace Plugin

/-! ## The name of a handle -/

/-- The line sets the name. -/
def SetsName (line : CStr) : Prop :=
  ∃ key value, directive line = some (.info key value) ∧
    strcaseEq (key.dropWhile (· = ' ')) "Name".toList = true

/-- A `Name` line is read, before a parameter line finds no memory. The lines are numbered from
`n` on. -/
def NameIn (alloc : Nat → Bool) : Nat → List CStr → Prop
  | _, [] => False
  | n, line :: rest =>
    SetsName line ∨ ¬ (alloc n = false ∧ IsParam line) ∧ NameIn alloc (n + 1) rest

/-- The manifest is opened and gives a name. -/
def NameRead (e : Entry) : Prop :=
  ∃ text, e.manifest = some text ∧ NameIn e.paramAlloc 0 ((fgetsLines 256 text).map chomp)

/-- The name is one of the directory scan. -/
def Name.Borrowed (name : Option Name) : Prop := ∃ n, name = some (.borrowed n)

theorem Handle.setInfo_name (h : Handle) {key : CStr} (value : CStr)
    (hk : strcaseEq (key.dropWhile (· = ' ')) "Name".toList ≠ true) :
    (h.setInfo key value).info.name = h.info.name := by
  unfold Handle.setInfo
  simp only
  rw [if_neg hk]
  split
  · rfl
  split <;> rfl

/-- A `Name` line makes the name a copy and does not fail; the other lines leave it alone. -/
theorem manifestLine_name (alloc : Bool) (line : CStr) (h : Handle) :
    (SetsName line → ¬ Name.Borrowed (manifestLine alloc line h).1.info.name ∧
        (manifestLine alloc line h).2 = true) ∧
      (¬ SetsName line → (manifestLine alloc line h).1.info.name = h.info.name) := by
  rw [manifestLine_eq]
  constructor
  · rintro ⟨key, value, hd, hk⟩
    rw [hd]
    refine ⟨?_, rfl⟩
    rintro ⟨n, hn⟩
    simp only [Option.elim_some, Directive.apply, Handle.setInfo, if_pos hk, Option.some.injEq,
      reduceCtorEq] at hn
  · intro hno
    cases hd : directive line with
    | none => rfl
    | some d =>
      cases d with
      | param key value => cases alloc <;> rfl
      | info key value => exact h.setInfo_name value fun hk => hno ⟨key, value, hd, hk⟩

theorem manifestLines_name (alloc : Nat → Bool) (n : Nat) (lines : List CStr) (h : Handle) :
    (NameIn alloc n lines → ¬ Name.Borrowed (manifestLines alloc n lines h).1.info.name) ∧
      (¬ NameIn alloc n lines → (manifestLines alloc n lines h).1.info.name = h.info.name) := by
  induction lines generalizing n h with
  | nil => exact ⟨fun hn => hn.elim, fun _ => rfl⟩
  | cons line rest ih =>
    obtain ⟨hname, hother⟩ := manifestLine_name (alloc n) line h
    have hfail := (manifestLine_spec (alloc n) line h).1
    unfold manifestLines NameIn
    rcases hm : manifestLine (alloc n) line h with ⟨k, _ | _⟩
    · -- The line fails: it is a parameter, and the last line that is read.
      rw [hm] at hname hother hfail
      have hno : ¬ SetsName line := fun hn => by cases (hname hn).2
      refine ⟨fun hn => ?_, fun _ => hother hno⟩
      rcases hn with hn | ⟨hgo, -⟩
      · exact absurd hn hno
      · exact absurd (hfail.mp rfl) hgo
    · rw [hm] at hname hother hfail
      have hgo : ¬ (alloc n = false ∧ IsParam line) := fun hp => by cases hfail.mpr hp
      obtain ⟨hin, hout⟩ := ih (n + 1) k
      by_cases hrest : NameIn alloc (n + 1) rest
      · exact ⟨fun _ => hin hrest, fun hn => absurd (.inr ⟨hgo, hrest⟩) hn⟩
      · simp only [hout hrest]
        refine ⟨fun hn => ?_, fun hn => hother fun h => hn (.inl h)⟩
        rcases hn with hn | ⟨-, hn⟩
        · exact (hname hn).1
        · exact absurd hn hrest

/-- **Whose name it is.** Behind `plugin_manifest_set` the handle has the name of the directory
scan exactly when no `Name` line was read. -/
theorem manifestHandle_name (e : Entry) (g : Loader) :
    Name.Borrowed (manifestHandle e g).info.name ↔ ¬ NameRead e := by
  have hnew : Name.Borrowed (newHandle g).info.name := ⟨g.loads, rfl⟩
  unfold manifestHandle pluginManifestSet NameRead
  cases hm : e.manifest with
  | none => exact iff_of_true hnew fun ⟨_, h, _⟩ => nomatch h
  | some text =>
    obtain ⟨hin, hout⟩ :=
      manifestLines_name e.paramAlloc 0 ((fgetsLines 256 text).map chomp) (newHandle g)
    have hiff : Name.Borrowed (manifestLines e.paramAlloc 0 ((fgetsLines 256 text).map chomp)
        (newHandle g)).1.info.name ↔
          ¬ ∃ t, some text = some t ∧ NameIn e.paramAlloc 0 ((fgetsLines 256 t).map chomp) := by
      refine ⟨?_, fun hn => ?_⟩
      · rintro hb ⟨t, ht, hn⟩
        cases ht
        exact hin hn hb
      · rw [hout fun h => hn ⟨text, rfl, h⟩]
        exact hnew
    simp only
    rcases hl : manifestLines e.paramAlloc 0 ((fgetsLines 256 text).map chomp) (newHandle g)
      with ⟨k, _ | _⟩ <;> rw [hl] at hiff <;> exact hiff

/-! ## The uses of a name -/

/-- No borrowed name was freed and none is in the table. -/
structure Owned (s : State) : Prop where
  freed : s.loader.badFrees = 0
  table : ∀ k ∈ s.plugins.getD [], ¬ Name.Borrowed k.info.name

/-- The table takes a plugin that was loaded: it has room and is there, or it can grow. -/
def State.Takes (s : State) (e : Entry) : Prop :=
  if s.pluginsCount < s.pluginsCapacity then s.plugins ≠ none else e.grow = true

/-- The entry's load frees the name or stores it. -/
structure UsesName (s : State) (e : Entry) : Prop where
  dir : e.IsPlugin
  handleAlloc : e.handleAlloc = true
  goes : ¬ Faults e s.loader
  taken : Loads e s.loader → s.Takes e

/-- If the name is used, it was read. -/
def Named (s : State) (e : Entry) : Prop := UsesName s e → NameRead e

theorem freeName_eq_zero (name : Option Name) :
    freeName name 0 = 0 ↔ ¬ Name.Borrowed name := by
  rcases name with _ | n | text
  · exact iff_of_true rfl fun ⟨_, h⟩ => nomatch h
  · exact iff_of_false nofun fun h => h ⟨n, rfl⟩
  · exact iff_of_true rfl fun ⟨_, h⟩ => nomatch h

/-- A load that fails frees the name, if there is a handle. -/
theorem failed_name {e : Entry} {g g' : Loader} (h : pluginLoad e g = some (none, g')) :
    if e.handleAlloc then
      ¬ Faults e g ∧ ¬ Loads e g ∧
        g'.badFrees = freeName (manifestHandle e g).info.name g.badFrees
    else g'.badFrees = g.badFrees := by
  have hgoes : ¬ Faults e g := by rw [← pluginLoad_eq_none_iff, h]; exact nofun
  have hstuck : ¬ Loads e g := by
    rw [← pluginLoad_loads_iff, h]
    exact fun ⟨_, _, h⟩ => nomatch h
  have hcase := pluginLoad_case e g
  rw [h] at hcase
  cases hcase with
  | noHandle alloc => rw [alloc]; rfl
  | noManifest alloc fails => rw [alloc]; exact ⟨hgoes, hstuck, rfl⟩
  | freed ret hk alloc manifest data stuck => rw [alloc]; exact ⟨hgoes, hstuck, rfl⟩

/-- A load that returns a handle frees nothing. -/
theorem loaded_name {e : Entry} {g g' : Loader} {h : Handle}
    (hl : pluginLoad e g = some (some h, g')) :
    h.info.name = (manifestHandle e g).info.name ∧ g'.badFrees = g.badFrees := by
  have hcase := pluginLoad_case e g
  rw [hl] at hcase
  cases hcase with
  | loaded hk fn needs data symbol => exact ⟨rfl, rfl⟩

/-- A turn that frees the handle. -/
theorem owned_failed {s s' : State} (hs : Owned s) {e : Entry} (dir : e.IsPlugin)
    (load : pluginLoad e s.loader = some (none, s'.loader)) (plugins : s'.plugins = s.plugins) :
    Owned s' ↔ Named s e := by
  have hname := failed_name load
  have htable : ∀ k ∈ s'.plugins.getD [], ¬ Name.Borrowed k.info.name := by
    rw [plugins]
    exact hs.table
  cases ha : e.handleAlloc with
  | false =>
    rw [ha] at hname
    refine iff_of_true ⟨hname.trans hs.freed, htable⟩ fun hu => ?_
    rw [hu.handleAlloc] at ha
    cases ha
  | true =>
    rw [ha] at hname
    obtain ⟨hgoes, hstuck, hfree⟩ := hname
    rw [hs.freed] at hfree
    have huses : UsesName s e := ⟨dir, ha, hgoes, fun h => absurd h hstuck⟩
    have hread : NameRead e ↔ s'.loader.badFrees = 0 := by
      rw [hfree, freeName_eq_zero, manifestHandle_name, not_not]
    exact ⟨fun ho _ => hread.mpr ho.freed, fun hn => ⟨hread.mp (hn huses), htable⟩⟩

/-- A turn that stores the handle. -/
theorem owned_added {s s' : State} (hs : Owned s) {e : Entry} {h : Handle} (dir : e.IsPlugin)
    (load : pluginLoad e s.loader = some (some h, s'.loader)) (takes : s.Takes e)
    (plugins : s'.plugins = some (s.plugins.getD [] ++ [h])) : Owned s' ↔ Named s e := by
  obtain ⟨hname, hfree⟩ := loaded_name load
  have hloads : Loads e s.loader := pluginLoad_loads_iff.mp ⟨h, _, load⟩
  have hgoes : ¬ Faults e s.loader := by rw [← pluginLoad_eq_none_iff, load]; exact nofun
  have hread : NameRead e ↔ ¬ Name.Borrowed h.info.name := by
    rw [hname, manifestHandle_name, not_not]
  constructor
  · intro ho _
    rw [hread]
    exact ho.table h (by rw [plugins]; exact List.mem_append_right _ (List.mem_singleton_self h))
  · intro hn
    refine ⟨hfree.trans hs.freed, fun k hk => ?_⟩
    rw [plugins] at hk
    rcases List.mem_append.mp hk with hk | hk
    · exact hs.table k hk
    · rw [List.mem_singleton.mp hk]
      exact hread.mp (hn ⟨dir, hloads.handleAlloc, hgoes, fun _ => takes⟩)

theorem takes_of_room {s : State} {e : Entry} (room : s.pluginsCount < s.pluginsCapacity) :
    s.Takes e ↔ s.plugins ≠ none := by
  unfold State.Takes
  rw [if_pos room]

theorem takes_of_full {s : State} {e : Entry} (full : s.pluginsCapacity ≤ s.pluginsCount) :
    s.Takes e ↔ e.grow = true := by
  unfold State.Takes
  rw [if_neg (Nat.not_lt.mpr full)]

/-- **One turn of the loop.** It leaves all names owned exactly when it uses no name that was not
read. -/
theorem owned_step {s : State} (hs : Owned s) (e : Entry) :
    (∀ s', loadEntry e s = some s' → Owned s') ↔ Named s e := by
  have one : ∀ {s' : State}, (Owned s' ↔ Named s e) →
      ((∀ t, some s' = some t → Owned t) ↔ Named s e) := fun hiff =>
    ⟨fun h => hiff.mp (h _ rfl), fun h t ht => Option.some.inj ht ▸ hiff.mpr h⟩
  have hcase := loadEntry_case e s
  generalize loadEntry e s = r at hcase ⊢
  cases hcase with
  | skipped skip => exact one (iff_of_true hs fun hu => absurd hu.dir skip)
  | fault dir load =>
    refine iff_of_true (fun _ h => nomatch h) fun hu => ?_
    exact absurd (pluginLoad_eq_none_iff.mp load) hu.goes
  | failed g dir load => exact one (owned_failed hs dir load rfl)
  | noTable h g dir load room table =>
    refine iff_of_true (fun _ h => nomatch h) fun hu => ?_
    have ht := hu.taken (pluginLoad_loads_iff.mp ⟨h, g, load⟩)
    exact absurd table ((takes_of_room room).mp ht)
  | stored h g l dir load room table =>
    have ht : s.Takes e := (takes_of_room room).mpr (by rw [table]; exact nofun)
    exact one (owned_added hs dir load ht (by rw [table]; rfl))
  | grown h g dir load full grow =>
    exact one (owned_added hs dir load ((takes_of_full full).mpr grow) rfl)
  | dropped h g dir load full grow =>
    refine one (iff_of_true ⟨(loaded_name load).2.trans hs.freed, fun k hk => by cases hk⟩ ?_)
    intro hu
    have ht := (takes_of_full full).mp (hu.taken (pluginLoad_loads_iff.mp ⟨h, g, load⟩))
    rw [grow] at ht
    cases ht

theorem owned_init (hk : HeapKit.State) : Owned (State.init hk) := ⟨rfl, fun _ h => by cases h⟩

theorem owned_keeps : loading.Keeps Named Owned :=
  fun _ e t hs hn hstep => (owned_step hs e).mpr hn t hstep

/-! ## The life of the plugins -/

/-- A step after the loading loop frees no name, or that of a plugin in the table. -/
theorem step_frees {a : Act} {s s' : State} (h : a.step s = some s') :
    s'.loader.badFrees = s.loader.badFrees ∨ ∃ i k, s.slot i = some k ∧
      s'.loader.badFrees = freeName k.info.name s.loader.badFrees := by
  have op : ∀ {ρ : Type} {r₁ r₂ : ρ} {op : Operation ρ} {id : Nat},
      (onPlugin r₁ r₂ op id s).map (·.2) = some s' → s'.loader = s.loader := by
    intro ρ r₁ r₂ op id ho
    obtain ⟨⟨r, t⟩, hr, rfl⟩ := Option.map_eq_some_iff.mp ho
    rcases onPlugin_some hr with ⟨rfl, -, -⟩ | ⟨i, k, -, -, -, -, rfl⟩ <;> rfl
  cases a with
  | boot i initRet startRet =>
    obtain ⟨k, hslot, rfl⟩ := bootSlot_some h
    cases (bootHandle initRet startRet k).1 with
    | true => exact .inl rfl
    | false => exact .inr ⟨i, k, hslot, rfl⟩
  | shutdown id => exact .inl (congrArg Loader.badFrees (op h))
  | initializeP id ret => exact .inl (congrArg Loader.badFrees (op h))
  | start id ret => exact .inl (congrArg Loader.badFrees (op h))
  | stop id => exact .inl (congrArg Loader.badFrees (op h))
  | reboot id action => exact .inl (congrArg Loader.badFrees (op h))

theorem mem_of_slot {s : State} {i : Nat} {k : Handle} (h : s.slot i = some k) :
    k ∈ s.plugins.getD [] := by
  unfold State.slot at h
  obtain ⟨l, hl, hk⟩ := Option.bind_eq_some_iff.mp h
  rw [hl]
  exact List.mem_of_getElem? hk

/-- The second loop of `plugin_init` and the operations keep the names owned, whatever the plugins'
functions return. -/
theorem owned_manager : manager.Keeps (fun _ _ => True) Owned := by
  intro s a s' hs _ hstep
  refine ⟨?_, ?_⟩
  · rcases step_frees hstep with hf | ⟨i, k, hslot, hf⟩
    · exact hf.trans hs.freed
    · rw [hf, hs.freed, freeName_eq_zero]
      exact hs.table k (mem_of_slot hslot)
  · cases step_effect hstep with
    | missed same => rw [same]; exact hs.table
    | hit i h slot target plugins =>
      intro k hk
      rw [plugins] at hk
      cases hpl : s.plugins with
      | none => rw [hpl] at hk; cases hk
      | some l =>
        rw [hpl] at hk
        rcases List.mem_or_eq_of_mem_set hk with hk | rfl
        · exact hs.table k (by rw [hpl]; exact hk)
        · rcases a.effect_handle h with ⟨st, he⟩ | he
          · rw [he]
            exact hs.table h (mem_of_slot slot)
          · rw [he]
            exact fun ⟨_, hz⟩ => nomatch hz

/-- **Handle names are owned.** For all manifests and all outcomes of loading, and whatever the
plugins' functions return later: no name of the directory scan is freed and none is in the table,
if and only if every entry whose name is freed or stored has a `Name` line that is read. -/
theorem names_owned_iff (hk : HeapKit.State) (es : List Entry) :
    (∀ cs s as t, cs <+: es → loading.run cs (State.init hk) = some s →
        manager.run as s = some t → Owned t) ↔ loading.Meets Named es (State.init hk) := by
  constructor
  · intro h
    refine Machine.meets_of_prefixes (H := fun _ _ => True) (I := Owned) (P := Owned)
      (owned_keeps.mono fun _ _ hn => hn.2) (fun s e hs _ hstep => (owned_step hs e).mp hstep)
      (owned_init hk) (Machine.Meets.of_forall (fun _ _ => trivial) es _) fun cs s hcs hs => ?_
    exact h cs s [] s hcs hs rfl
  · rintro hm cs s as t ⟨rest, rfl⟩ hs ht
    exact owned_manager.run_all (owned_keeps.run (owned_init hk) hm.initial hs) ht

/-- A plugin directory whose manifest has no `Name` line. -/
def noName : Entry := { pluginDir ['a'] true with manifest := some "Code=7\n".toList }

/-- **A borrowed name is freed, and one is stored.** Without a manifest, `FREE_PLUGIN` frees the
name that `readdir` returned. Without a `Name` line the handle in the table keeps that name, and
`FREE_PLUGIN_HANDLE` frees it when the initialize function fails. -/
theorem borrowed_freed_and_stored :
    (∃ s, loading.run [noManifest] (State.init noTypes) = some s ∧ s.loader.badFrees = 1 ∧
      ¬ Owned s) ∧
    ∃ s t, loading.run [noName] (State.init noTypes) = some s ∧
      (s.slot 0).map (fun h => h.info.name) = some (some (.borrowed 0)) ∧ ¬ Owned s ∧
      manager.run [.boot 0 1 0] s = some t ∧ t.loader.badFrees = 1 ∧ ¬ Owned t := by
  constructor
  · have hrun : (loading.run [noManifest] (State.init noTypes)).any
        (fun s => s.loader.badFrees = 1) = true := by decide +kernel
    obtain ⟨s, hs, hb⟩ := Option.any_eq_true _ _ |>.mp hrun
    replace hb : s.loader.badFrees = 1 := by simpa using hb
    exact ⟨s, hs, hb, fun ho => by rw [ho.freed] at hb; cases hb⟩
  · have hrun : (loading.run [noName] (State.init noTypes)).any (fun s =>
        decide ((s.slot 0).map (fun h => h.info.name) = some (some (.borrowed 0))) &&
          (manager.run [.boot 0 1 0] s).any fun t => t.loader.badFrees = 1) = true := by
      decide +kernel
    obtain ⟨s, hs, hrun⟩ := Option.any_eq_true _ _ |>.mp hrun
    obtain ⟨hname, hrun⟩ := Bool.and_eq_true_iff.mp hrun
    replace hname := of_decide_eq_true hname
    obtain ⟨t, ht, hb⟩ := Option.any_eq_true _ _ |>.mp hrun
    replace hb : t.loader.badFrees = 1 := by simpa using hb
    refine ⟨s, t, hs, hname, fun ho => ?_, ht, hb, fun ho => by rw [ho.freed] at hb; cases hb⟩
    obtain ⟨k, hk, hn⟩ := Option.map_eq_some_iff.mp hname
    exact ho.table k (mem_of_slot hk) ⟨0, hn⟩

end Plugin
end CoreCDTL
