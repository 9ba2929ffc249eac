import CoreCDTL.Plugin.Lifecycle

/-!
# The parameters of a plugin

* `paramOf`, `manifestParams`: the parameters that a line and a manifest give. `manifest_passed`:
  `plugin_manifest_set` adds them one after the other, with a `uint8_t` for their number.
* `FromManifest`: a handle has the parameters of an entry's manifest. Every plugin in the table has
  them until it is freed (`fromManifest_of_runs`), so they are what its initialize function gets.
* `manifest_params_iff`: all parameters are kept exactly when there are at most 255.
-/

namespace CoreCDTL
namespace Plugin

/-! ## Lines -/

/-- The parameter of a line: its key and its value, around the first `=`. -/
def paramOf (line : CStr) : Option (CStr × CStr) :=
  if "--".toList.isPrefixOf line then strchr '=' (line.drop 2) else none

/-- The parameters of a manifest in file order. A line goes up to its CR or newline. -/
def manifestParams (text : List Char) : List (CStr × CStr) :=
  ((textLines text).map chomp).filterMap paramOf

/-- What the initialize function of a plugin is called with: `PLUGIN_PARAMS` and
`PLUGIN_PARAM_COUNT`. -/
def Handle.passed (h : Handle) : List (CStr × CStr) × Nat := (h.params, h.paramCount)

/-- One more parameter. -/
def addPair (p : List (CStr × CStr) × Nat) (kv : CStr × CStr) : List (CStr × CStr) × Nat :=
  (p.1.take p.2 ++ [kv], (p.2 + 1) % 256)

theorem Handle.setInfo_passed (h : Handle) (key value : CStr) :
    (h.setInfo key value).passed = h.passed := by
  obtain ⟨info, he⟩ := h.setInfo_eq key value
  rw [he]
  rfl

/-- A line adds its parameter. -/
theorem manifestLine_passed {alloc : Bool} {line : CStr} {h h' : Handle}
    (hm : manifestLine alloc line h = (h', true)) :
    h'.passed = (paramOf line).toList.foldl addPair h.passed := by
  unfold manifestLine at hm
  unfold paramOf
  by_cases hskip : line = [] ∨ line.head? = some '#'
  · rw [if_pos hskip] at hm
    cases hm
    have hno : "--".toList.isPrefixOf line = false := by
      rcases hskip with rfl | hc
      · rfl
      · obtain ⟨t, rfl⟩ := List.head?_eq_some_iff.mp hc
        rfl
    rw [hno]
    rfl
  rw [if_neg hskip] at hm
  by_cases hdash : "--".toList.isPrefixOf line = true
  · rw [if_pos hdash] at hm ⊢
    cases heq : strchr '=' (line.drop 2) with
    | none =>
      simp only [heq, Prod.mk.injEq, and_true] at hm
      rw [← hm]
      rfl
    | some kv =>
      simp only [heq] at hm
      cases alloc with
      | false => cases hm
      | true =>
        cases hm
        rfl
  · rw [if_neg hdash] at hm ⊢
    cases heq : strchr '=' line with
    | none =>
      simp only [heq, Prod.mk.injEq, and_true] at hm
      rw [← hm]
      rfl
    | some kv =>
      simp only [heq, Prod.mk.injEq, and_true] at hm
      rw [← hm]
      exact h.setInfo_passed _ _

/-- The loop adds the parameters of the lines in turn. -/
theorem manifestLines_passed {alloc : Nat → Bool} {lines : List CStr} {n : Nat} {h h' : Handle}
    (hm : manifestLines alloc n lines h = (h', true)) :
    h'.passed = (lines.filterMap paramOf).foldl addPair h.passed := by
  induction lines generalizing n h with
  | nil =>
    cases hm
    rfl
  | cons line rest ih =>
    unfold manifestLines at hm
    rcases hline : manifestLine (alloc n) line h with ⟨g, _ | _⟩
    · simp only [hline, Prod.mk.injEq, Bool.false_eq_true, and_false] at hm
    · simp only [hline] at hm
      rw [ih hm, manifestLine_passed hline]
      cases hp : paramOf line with
      | none => rw [List.filterMap_cons_none hp]; rfl
      | some kv => rw [List.filterMap_cons_some hp]; rfl

theorem manifest_passed {e : Entry} {text : List Char} {id : Nat} {h : Handle}
    (htext : e.manifest = some text) (hshort : ∀ l ∈ textLines text, l.length < 255)
    (hret : (pluginManifestSet e id h).1 = 0) :
    (pluginManifestSet e id h).2.1.passed = (manifestParams text).foldl addPair h.passed := by
  have hlines : (fgetsLines 256 text).map chomp = (textLines text).map chomp :=
    fgetsLines_chomp fun l hl => Nat.succ_lt_succ (hshort l hl)
  unfold pluginManifestSet at hret ⊢
  simp only [htext, hlines] at hret ⊢
  rcases hm : manifestLines e.paramAlloc 0 ((textLines text).map chomp) h with ⟨g, _ | _⟩
  · simp [hm] at hret
  · have hg : g.passed = _ := manifestLines_passed hm
    exact hg

/-! ## The counter -/

/-- Up to 255 parameters are kept. -/
theorem foldl_addPair_fits {ps qs : List (CStr × CStr)} (h : qs.length + ps.length ≤ 255) :
    ps.foldl addPair (qs, qs.length) = (qs ++ ps, qs.length + ps.length) := by
  induction ps generalizing qs with
  | nil => simp
  | cons p ps ih =>
    rw [List.length_cons] at h
    have hstep : addPair (qs, qs.length) p = (qs ++ [p], (qs ++ [p]).length) := by
      unfold addPair
      rw [List.take_length, List.length_append, List.length_singleton,
        Nat.mod_eq_of_lt (by omega)]
    rw [List.foldl_cons, hstep, ih (by rw [List.length_append, List.length_singleton]; omega)]
    simp only [List.append_assoc, List.singleton_append, List.length_append, List.length_cons,
      List.length_nil, Prod.mk.injEq, true_and]
    omega

theorem foldl_addPair_lt (ps : List (CStr × CStr)) {p : List (CStr × CStr) × Nat}
    (h : p.2 < 256) : (ps.foldl addPair p).2 < 256 := by
  induction ps generalizing p with
  | nil => exact h
  | cons q ps ih => exact ih (Nat.mod_lt _ (by decide))

/-! ## From the manifest to the plugin -/

/-- The handle has the parameters that `plugin_manifest_set` gave a new one for the entry. -/
def FromManifest (e : Entry) (k : Handle) : Prop :=
  ∃ id h₀, h₀.passed = ([], 0) ∧ (pluginManifestSet e id h₀).1 = 0 ∧
    k.passed = (pluginManifestSet e id h₀).2.1.passed

/-- Behind `plugin_manifest_set`, the load leaves the parameters alone. -/
theorem pluginLoad_fromManifest {e : Entry} {g g' : Loader} {k : Handle}
    (h : pluginLoad e g = some (some k, g')) : FromManifest e k := by
  have hcase := pluginLoad_case e g
  rw [h] at hcase
  cases hcase with
  | loaded hk fn needs data symbol =>
    refine ⟨g.currentId, newHandle g, rfl, ?_, rfl⟩
    by_contra hret
    exact needs.manifest ((pluginManifestSet_spec e g.currentId (newHandle g)).1.mp hret)

/-- A turn of the loading loop adds at most the plugin that it loads. -/
theorem loadEntry_handles {e : Entry} {s s' : State} (hs : loadEntry e s = some s') :
    ∀ k ∈ s'.plugins.getD [], k ∈ s.plugins.getD [] ∨
      ∃ g, pluginLoad e s.loader = some (some k, g) := by
  have hnew : ∀ {h : Handle} {g : Loader}, pluginLoad e s.loader = some (some h, g) →
      ∀ l, s.plugins.getD [] = l → ∀ k ∈ l ++ [h],
        k ∈ s.plugins.getD [] ∨ ∃ g, pluginLoad e s.loader = some (some k, g) := by
    rintro h g load l rfl k hk
    rcases List.mem_append.mp hk with hk | hk
    · exact .inl hk
    · rw [List.mem_singleton.mp hk]
      exact .inr ⟨g, load⟩
  have hcase := loadEntry_case e s
  rw [hs] at hcase
  cases hcase with
  | skipped _ => exact fun k hk => .inl hk
  | failed g dir load => exact fun k hk => .inl hk
  | stored h g l dir load room table => exact hnew load l (by rw [table]; rfl)
  | grown h g dir load full grow => exact hnew load _ rfl
  | dropped h g dir load full grow => exact fun k hk => by cases hk

/-- Every plugin in the table that was not freed has the parameters of an entry's manifest. -/
def Carries (es : List Entry) (s : State) : Prop :=
  ∀ k ∈ s.plugins.getD [], k.Freed ∨ ∃ e ∈ es, FromManifest e k

theorem carries_loading (es : List Entry) : loading.Keeps (fun _ e => e ∈ es) (Carries es) := by
  intro s e s' hs he hstep k hk
  rcases loadEntry_handles hstep k hk with hk | ⟨g, load⟩
  · exact hs k hk
  · exact .inr ⟨e, he, pluginLoad_fromManifest load⟩

theorem carries_manager (es : List Entry) : manager.Keeps (fun _ _ => True) (Carries es) := by
  intro s a s' hs _ hstep
  cases step_effect hstep with
  | missed same => rw [same]; exact hs
  | hit i h slot target plugins count loads calls =>
    intro k hk
    unfold State.slot at slot
    obtain ⟨l, hl, hi⟩ := Option.bind_eq_some_iff.mp slot
    unfold Carries at hs
    rw [hl, Option.getD_some] at hs
    rw [plugins, hl, Option.map_some, Option.getD_some] at hk
    rcases List.mem_or_eq_of_mem_set hk with hk | rfl
    · exact hs k hk
    · rcases a.effect_handle h with ⟨st, he⟩ | he
      · rw [he]
        rcases hs h (List.mem_of_getElem? hi) with hf | hm
        · exact .inl ⟨hf.so, hf.funcs⟩
        · exact .inr hm
      · rw [he]
        exact .inl freed_zero

/-- **What the initialize functions get.** After every run of the loading loop and of the steps
behind it, a plugin whose initialize function is called has the parameters of a manifest. -/
theorem fromManifest_of_runs {hk : HeapKit.State} {es : List Entry} {s t : State} {as : List Act}
    (hload : loading.run es (State.init hk) = some s) (hrun : manager.run as s = some t) {a : Act}
    {i lib : Nat} {k : Handle} (hslot : t.slot i = some k)
    (hcall : .initializeFn lib ∈ (a.effect k).2) : ∃ e ∈ es, FromManifest e k := by
  have hs : Carries es s := by
    refine (carries_loading es).run (fun k hk => ?_) (.of_mem (fun _ e he => he) _) hload
    cases hk
  have ht := (carries_manager es).run_all hs hrun
  unfold State.slot at hslot
  obtain ⟨l, hl, hi⟩ := Option.bind_eq_some_iff.mp hslot
  unfold Carries at ht
  rw [hl, Option.getD_some] at ht
  rcases ht k (List.mem_of_getElem? hi) with hf | hm
  · exact absurd (Act.effect_calls hcall) (hf.no_call _)
  · exact hm

/-- **When all parameters are kept.** For every manifest with lines shorter than 255 bytes and every
new handle: when `plugin_manifest_set` returns 0, the handle has exactly the parameters of the
manifest, in file order, and their number, if and only if there are at most 255. And what
`plugin_init` and `plugin_initialize` pass to a plugin is what `plugin_manifest_set` left for an
entry. -/
theorem manifest_params_iff {e : Entry} {text : List Char} {id : Nat} {h : Handle}
    (htext : e.manifest = some text) (hshort : ∀ l ∈ textLines text, l.length < 255)
    (hnew : h.passed = ([], 0)) (hret : (pluginManifestSet e id h).1 = 0) :
    ((pluginManifestSet e id h).2.1.passed =
        (manifestParams text, (manifestParams text).length) ↔
      (manifestParams text).length ≤ 255) ∧
    ∀ (hk : HeapKit.State) (es : List Entry) (s t : State) (as : List Act) (a : Act)
        (i lib : Nat) (k : Handle),
      loading.run es (State.init hk) = some s → manager.run as s = some t →
      t.slot i = some k → Call.initializeFn lib ∈ (a.effect k).2 →
        ∃ e' ∈ es, FromManifest e' k := by
  refine ⟨?_, fun hk es s t as a i lib k hload hrun hslot hcall =>
    fromManifest_of_runs hload hrun hslot hcall⟩
  rw [manifest_passed htext hshort hret, hnew]
  constructor
  · intro heq
    have hlt := foldl_addPair_lt (manifestParams text) (p := ([], 0)) (by decide)
    rw [heq] at hlt
    exact Nat.le_of_lt_succ hlt
  · intro hle
    have hfits := @foldl_addPair_fits (manifestParams text) [] (by simpa using hle)
    simpa using hfits

/-- A manifest with one parameter. -/
theorem manifest_params_iff_mode :
    (pluginManifestSet (pluginDir ['a'] true) 1 Handle.zero).2.1.passed =
      ([("mode".toList, "fast".toList)], 1) := by
  have hparams : manifestParams "Name=a\nCode=7\n--mode=fast\n".toList =
      [("mode".toList, "fast".toList)] := by decide +kernel
  have hkept := (@manifest_params_iff (pluginDir ['a'] true) "Name=a\nCode=7\n--mode=fast\n".toList
    1 Handle.zero rfl (by decide +kernel) rfl (by decide +kernel)).1.mpr (by rw [hparams]; decide)
  rwa [hparams] at hkept

/-- An entry whose manifest has 256 parameters. -/
def manyParams : Entry :=
  { pluginDir ['a'] true with
    manifest := some (List.replicate 256 "--k=v\n".toList).flatten }

/-- **The 256th parameter.** The manifest is accepted and the number of parameters is 0. -/
theorem params_lost :
    (pluginManifestSet manyParams 1 Handle.zero).1 = 0 ∧
      (manifestParams (List.replicate 256 "--k=v\n".toList).flatten).length = 256 ∧
      (pluginManifestSet manyParams 1 Handle.zero).2.1.paramCount = 0 ∧
      (pluginManifestSet manyParams 1 Handle.zero).2.1.passed ≠
        (manifestParams (List.replicate 256 "--k=v\n".toList).flatten,
          (manifestParams (List.replicate 256 "--k=v\n".toList).flatten).length) := by
  have hcount : (pluginManifestSet manyParams 1 Handle.zero).2.1.paramCount = 0 := by
    decide +kernel
  have hlength : (manifestParams (List.replicate 256 "--k=v\n".toList).flatten).length = 256 := by
    decide +kernel
  refine ⟨by decide +kernel, hlength, hcount, fun heq => ?_⟩
  have hsame := congrArg Prod.snd heq
  rw [hlength] at hsame
  exact absurd (hcount.symm.trans hsame) (by decide)

end Plugin
end CoreCDTL
