import CoreCDTL.Lib.Growable
import CoreCDTL.Plugin.Ids

/-!
# The growth of the plugin table

`plugin_init` doubles `plugins_capacity` and overwrites `plugins` with what `realloc` returns before
it looks whether that is NULL. The old block is lost with all its plugins, the count stays, and the
next plugin is written behind a NULL pointer.

* `accept`: history variables of the loading loop, the room of the block and the plugins that were
  accepted: those that were loaded, but for one that a full table could not take.
* `tableOf`: the three globals as a `Growable`. `step_push`: a turn that loads a plugin pushes it.
* `Atomic`: what a turn of the loop promises. `growth_atomic_iff`: every turn keeps it if and only
  if no `realloc` fails that a loaded plugin needs.
-/

namespace CoreCDTL
namespace Plugin

/-- The room of the table's block, and the plugins that were accepted, in load order. -/
structure Accepted where
  room : Nat
  handles : List Handle

/-- The table needs a larger block for one more plugin and does not get it. -/
def GrowthFails (s : State) (e : Entry) : Prop :=
  s.pluginsCapacity ≤ s.pluginsCount ∧ e.grow = false

instance (s : State) (e : Entry) : Decidable (GrowthFails s e) :=
  inferInstanceAs (Decidable (_ ∧ _))

instance (e : Entry) : Decidable e.IsPlugin := inferInstanceAs (Decidable (_ ∧ _))

/-- A turn of the loop sizes the block anew if the table is full, and accepts the plugin that it
loads if there is a block. -/
def accept (e : Entry) (s : State) (x : Accepted) : Accepted :=
  match pluginLoad e s.loader with
  | some (some h, _) =>
    if ¬ e.IsPlugin then x
    else if GrowthFails s e then ⟨0, x.handles⟩
    else ⟨if s.pluginsCapacity ≤ s.pluginsCount then grownCapacity s.pluginsCapacity else x.room,
      x.handles ++ [h]⟩
  | _ => x

/-- The loading loop with these histories. -/
def growing : Machine (State × Accepted) Entry := loading.withHistory accept

/-- The table with its counters. -/
def tableOf (x : State × Accepted) : Growable Handle :=
  ⟨x.1.plugins.map (x.2.room, ·), x.1.pluginsCount, x.1.pluginsCapacity⟩

/-- The table holds the accepted plugins in load order, and has room for `plugins_capacity` of
them. -/
def TableRight (x : State × Accepted) : Prop := (tableOf x).Holds x.2.handles

/-- What a turn of the loop promises: unless `plugin_load` itself faults it goes through, and the
table is right. -/
def Atomic (x : State × Accepted) (e : Entry) : Prop :=
  e.IsPlugin ∧ Faults e x.1.loader ∨ ∃ y, growing.step e x = some y ∧ TableRight y

/-- A loaded plugin finds room or a larger block. -/
def Grows (s : State) (e : Entry) : Prop :=
  e.IsPlugin → Loads e s.loader → ¬ GrowthFails s e

/-! ## One turn -/

/-- In a turn that goes through no load faults. -/
theorem step_goes {x y : State × Accepted} {e : Entry} (h : growing.step e x = some y) :
    ¬ (e.IsPlugin ∧ Faults e x.1.loader) := by
  rintro ⟨dir, hf⟩
  have hs : loadEntry e x.1 = some y.1 := (Machine.withHistory_step.mp h).1
  rw [loadEntry_faults dir hf] at hs
  cases hs

theorem accept_loaded {e : Entry} {s : State} {h : Handle} {g : Loader} (dir : e.IsPlugin)
    (load : pluginLoad e s.loader = some (some h, g)) (x : Accepted) :
    accept e s x = if GrowthFails s e then ⟨0, x.handles⟩
      else ⟨if s.pluginsCapacity ≤ s.pluginsCount then grownCapacity s.pluginsCapacity else x.room,
        x.handles ++ [h]⟩ := by
  unfold accept
  rw [load]
  exact if_neg (not_not.mpr dir)

/-- **A turn that loads a plugin pushes it.** -/
theorem step_push {x : State × Accepted} (hx : TableRight x) {e : Entry} {h : Handle} {g : Loader}
    (dir : e.IsPlugin) (load : pluginLoad e x.1.loader = some (some h, g)) :
    (growing.step e x).map (fun y => (tableOf y, y.2.handles)) =
      ((tableOf x).push grownCapacity e.grow h).map fun t =>
        (t, if GrowthFails x.1 e then x.2.handles else x.2.handles ++ [h]) := by
  obtain ⟨s, a⟩ := x
  show ((loadEntry e s).map fun s' => (s', accept e s a)).map _ = _
  rw [accept_loaded dir load]
  have hcase := loadEntry_case e s
  generalize loadEntry e s = r at hcase ⊢
  cases hcase with
  | skipped skip => exact absurd dir skip
  | fault dir load' => cases load.symm.trans load'
  | failed g dir load' => cases load.symm.trans load'
  | noTable h g dir load' room table =>
    -- A right table with room is not NULL.
    have hroom := hx.room
    simp only [tableOf, Growable.room, table, Option.map_none, Option.getD_none] at hroom
    omega
  | stored h g l dir load' room table =>
    cases load.symm.trans load'
    have hfree : (tableOf (s, a)).count < (tableOf (s, a)).capacity := room
    have hfull : ¬ s.pluginsCapacity ≤ s.pluginsCount := Nat.not_le.mpr room
    have hfails : ¬ GrowthFails s e := fun hf => hfull hf.1
    rw [Growable.push_free hfree, Growable.put_of_lt (Nat.lt_of_lt_of_le hfree hx.room)]
    simp only [Option.map_some, if_neg hfails, if_neg hfull]
    simp only [tableOf, table, Growable.room, Growable.entries, Option.map_some, Option.getD_some]
  | grown h g dir load' full grow =>
    cases load.symm.trans load'
    have hfull : (tableOf (s, a)).capacity ≤ (tableOf (s, a)).count := full
    have hfails : ¬ GrowthFails s e := fun hf => by
      have := hf.2
      rw [grow] at this
      cases this
    have hput : s.pluginsCount < grownCapacity s.pluginsCapacity :=
      Nat.lt_of_le_of_lt hx.used (lt_grownCapacity _)
    have hentries : (tableOf (s, a)).entries = s.plugins.getD [] := by
      simp only [tableOf, Growable.entries]
      cases s.plugins <;> rfl
    rw [grow, Growable.push_grown hfull, Growable.put_of_lt hput]
    simp only [Option.map_some, if_neg hfails, if_pos full, hentries]
    rfl
  | dropped h g dir load' full grow =>
    have hfull : (tableOf (s, a)).capacity ≤ (tableOf (s, a)).count := full
    have hfails : GrowthFails s e := ⟨full, grow⟩
    rw [grow, Growable.push_failed hfull]
    simp only [Option.map_some, if_pos hfails]
    rfl

/-- A turn that loads no plugin leaves the table alone, if it goes through. -/
theorem step_idle {x : State × Accepted} {e : Entry} (hno : ¬ (e.IsPlugin ∧ Loads e x.1.loader)) :
    e.IsPlugin ∧ Faults e x.1.loader ∨
      ∃ y, growing.step e x = some y ∧ tableOf y = tableOf x ∧ y.2 = x.2 := by
  obtain ⟨s, a⟩ := x
  have hloads : ∀ {h : Handle} {g : Loader}, e.IsPlugin →
      pluginLoad e s.loader ≠ some (some h, g) := fun dir load =>
    hno ⟨dir, pluginLoad_loads_iff.mp ⟨_, _, load⟩⟩
  have haccept : accept e s a = a := by
    unfold accept
    split
    · rename_i h g load
      exact if_pos fun dir => hloads dir load
    · rfl
  have step : growing.step e (s, a) = (loadEntry e s).map fun s' => (s', a) := by
    show (loadEntry e s).map _ = _
    rw [haccept]
  rw [step]
  have hcase := loadEntry_case e s
  generalize loadEntry e s = r at hcase ⊢
  cases hcase with
  | skipped skip => exact .inr ⟨_, rfl, rfl, rfl⟩
  | fault dir load => exact .inl ⟨dir, pluginLoad_eq_none_iff.mp load⟩
  | failed g dir load => exact .inr ⟨_, rfl, rfl, rfl⟩
  | noTable h g dir load => exact absurd load (hloads dir)
  | stored h g l dir load => exact absurd load (hloads dir)
  | grown h g dir load => exact absurd load (hloads dir)
  | dropped h g dir load => exact absurd load (hloads dir)

/-- A turn that loads a plugin leaves a right table exactly when the push does. -/
theorem step_right_iff {x : State × Accepted} (hx : TableRight x) {e : Entry} {h : Handle}
    {g : Loader} (dir : e.IsPlugin) (load : pluginLoad e x.1.loader = some (some h, g)) :
    (∃ y, growing.step e x = some y ∧ TableRight y) ↔
      ∃ t, (tableOf x).push grownCapacity e.grow h = some t ∧
        t.Holds (if GrowthFails x.1 e then x.2.handles else x.2.handles ++ [h]) := by
  let right : Growable Handle × List Handle → Prop := fun p => p.1.Holds p.2
  calc (∃ y ∈ growing.step e x, right (tableOf y, y.2.handles))
      ↔ ∃ p ∈ (growing.step e x).map (fun y => (tableOf y, y.2.handles)), right p :=
        Option.exists_mem_map.symm
    _ ↔ ∃ p ∈ ((tableOf x).push grownCapacity e.grow h).map (fun t =>
          (t, if GrowthFails x.1 e then x.2.handles else x.2.handles ++ [h])), right p := by
        rw [step_push hx dir load]
    _ ↔ _ := Option.exists_mem_map

/-- **One turn** of the loop on a right table keeps its promise exactly when the table grows. -/
theorem atomic_step {x : State × Accepted} (hx : TableRight x) (e : Entry) :
    Atomic x e ↔ Grows x.1 e := by
  by_cases hload : e.IsPlugin ∧ Loads e x.1.loader
  · obtain ⟨dir, hloads⟩ := hload
    obtain ⟨h, g, load⟩ := pluginLoad_loads_iff.mpr hloads
    have hgoes : ¬ Faults e x.1.loader := by rw [← pluginLoad_eq_none_iff, load]; exact nofun
    calc Atomic x e
        ↔ ∃ y, growing.step e x = some y ∧ TableRight y := or_iff_right fun h => hgoes h.2
      _ ↔ ∃ t, (tableOf x).push grownCapacity e.grow h = some t ∧
            t.Holds (if GrowthFails x.1 e then x.2.handles else x.2.handles ++ [h]) :=
          step_right_iff hx dir load
      _ ↔ ¬ GrowthFails x.1 e := hx.push_iff lt_grownCapacity e.grow h
      _ ↔ Grows x.1 e := ⟨fun hg _ _ => hg, fun hg => hg dir hloads⟩
  · refine iff_of_true ?_ fun dir hloads => absurd ⟨dir, hloads⟩ hload
    rcases step_idle hload with hf | ⟨y, hy, htable, hhist⟩
    · exact .inl hf
    · refine .inr ⟨y, hy, ?_⟩
      unfold TableRight
      rw [htable, hhist]
      exact hx

theorem tableRight_keeps : growing.Keeps (fun x e => Grows x.1 e) TableRight := by
  intro x e y hx hg hstep
  rcases (atomic_step hx e).mpr hg with hf | ⟨z, hz, hright⟩
  · exact absurd hf (step_goes hstep)
  · cases hz.symm.trans hstep
    exact hright

/-- **Growing the table.** For every listing and all outcomes of loading and of `realloc`: each turn
of the loop that does not fault in `plugin_load` goes through and leaves exactly the accepted
plugins in the table, in load order and with the room that the capacity promises, if and only if no
`realloc` fails that a loaded plugin needs. -/
theorem growth_atomic_iff (hk : HeapKit.State) (es : List Entry) :
    (∀ bs e x, bs ++ [e] <+: es → growing.run bs (State.init hk, ⟨0, []⟩) = some x → Atomic x e) ↔
      loading.Meets Grows es (State.init hk) := by
  rw [← Machine.meets_iff_steps, ← @Machine.withHistory_meets _ _ loading _ accept]
  exact tableRight_keeps.meets_iff (fun x e hx => atomic_step hx e) Growable.holds_empty

/-- A plugin directory whose plugin finds a full table that cannot grow. -/
def noGrowth : Entry := { pluginDir ['k'] true with grow := false }

/-- **The table is lost.** Ten plugins fill the table. The eleventh loads and the `realloc` fails:
`plugins` is NULL with a count of 10 and a capacity of 20, and the next plugin that loads is
written behind the NULL pointer. -/
theorem table_lost :
    ∃ x y, growing.run ("abcdefghij".toList.map fun c => pluginDir [c] true)
        (State.init noTypes, ⟨0, []⟩) = some x ∧ x.1.pluginsCount = 10 ∧
      growing.step noGrowth x = some y ∧
      y.2.handles.length = 10 ∧ y.1.plugins = none ∧ y.1.pluginsCount = 10 ∧
      y.1.pluginsCapacity = 20 ∧ growing.step (pluginDir ['l'] true) y = none ∧
      ¬ Atomic x noGrowth := by
  have hrun : ((growing.run ("abcdefghij".toList.map fun c => pluginDir [c] true)
      (State.init noTypes, ⟨0, []⟩)).any fun x => decide (x.1.pluginsCount = 10) &&
        (growing.step noGrowth x).any fun y =>
          decide (y.2.handles.length = 10 ∧ y.1.plugins = none ∧ y.1.pluginsCount = 10 ∧
            y.1.pluginsCapacity = 20) && (growing.step (pluginDir ['l'] true) y).isNone) = true := by
    decide +kernel
  obtain ⟨x, hx, hrun⟩ := Option.any_eq_true _ _ |>.mp hrun
  obtain ⟨hten, hrun⟩ := Bool.and_eq_true_iff.mp hrun
  obtain ⟨y, hy, hrun⟩ := Option.any_eq_true _ _ |>.mp hrun
  obtain ⟨hlost, hnext⟩ := Bool.and_eq_true_iff.mp hrun
  obtain ⟨hhandles, hnull, hcount, hcapacity⟩ := of_decide_eq_true hlost
  refine ⟨x, y, hx, of_decide_eq_true hten, hy, hhandles, hnull, hcount, hcapacity,
    Option.isNone_iff_eq_none.mp hnext, ?_⟩
  rintro (hf | ⟨z, hz, hright⟩)
  · exact step_goes hy hf
  · cases hy.symm.trans hz
    have hroom := hright.room
    simp only [tableOf, Growable.room, hnull, hcapacity, Option.map_none, Option.getD_none] at hroom
    omega

end Plugin
end CoreCDTL
