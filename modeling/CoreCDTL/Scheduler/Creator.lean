import CoreCDTL.Scheduler.Cancel

/-!
# The scheduler: the creator's last look at its timer

`scheduler_after_ms` and `scheduler_every_ms` link the timer under `g_mtx` and read `t->id` again
after they have released it, for the message and for the return value. By then the node belongs to
the list: the scheduler thread, a cancellation or a shutdown may free it.

* `State.ReadsLive`: what the creators that still have to read `t->id` rely on.
* `FreesUnread`: the steps that free a timer whose creator has still to read it.
* `creator_reads_live_iff`: every creator reads a live node exactly in the runs without such steps.
* `creator_reads_freed`: a timer of 0 ms is called and freed before its creator returns.
-/

namespace CoreCDTL
namespace Scheduler

/-- The creator of the timer `r` has linked it and has still to read `t->id`. -/
def State.Unread (s : State) (r : Nat) : Prop := ∃ c ∈ s.returning, c.timer.ref = r

instance (s : State) (r : Nat) : Decidable (s.Unread r) :=
  inferInstanceAs (Decidable (∃ c ∈ s.returning, c.timer.ref = r))

/-- Every creator that has still to read `t->id` holds a node that is not freed, and reads the id
that was assigned to its timer. -/
def State.ReadsLive (s : State) : Prop :=
  ∀ c ∈ s.returning, c.timer.ref ∉ s.freed ∧
    (s.born[c.timer.ref]?).map TimerInfo.id = some c.timer.id

instance (s : State) : Decidable s.ReadsLive :=
  inferInstanceAs (Decidable (∀ c ∈ s.returning, _))

/-- The timer whose callback is over. -/
def Pc.done : Pc → List Timer
  | .after t => [t]
  | _ => []

/-- The step frees a timer whose creator has still to read it: a cancellation finds it, its last
callback is over, or the list is freed with it. -/
def FreesUnread (s : State) : Label → Prop
  | .cancel pid id =>
    0 < id ∧ ∃ p, removeTimer pid id s.timers = some p ∧ s.Unread p.1.ref
  | .relock _ => ∃ t ∈ s.pc.done, ¬ (t.repeating ∧ s.running) ∧ s.Unread t.ref
  | .cleanup _ => ∃ t ∈ s.timers, s.Unread t.ref
  | _ => False

instance (s : State) : (a : Label) → Decidable (FreesUnread s a)
  | .cancel pid id =>
    inferInstanceAs (Decidable (0 < id ∧ ∃ p, p ∈ removeTimer pid id s.timers ∧ s.Unread p.1.ref))
  | .relock _ =>
    inferInstanceAs (Decidable (∃ t ∈ s.pc.done, ¬ (t.repeating ∧ s.running) ∧ s.Unread t.ref))
  | .cleanup _ => inferInstanceAs (Decidable (∃ t ∈ s.timers, s.Unread t.ref))
  | .init _ | .after _ | .every _ | .insert _ | .ret _ | .shutdown _ | .lock | .loop _ | .call
  | .cbReturn | .cbCrash | .connect _ => isFalse id

/-- The creators that still have to read hold no freed node. -/
def State.UnreadLive (s : State) : Prop := ∀ r, s.Unread r → r ∉ s.freed

theorem Live.readsLive_iff {s : State} (hl : Live s) : s.ReadsLive ↔ s.UnreadLive := by
  constructor
  · rintro h _ ⟨c, hc, rfl⟩
    exact (h c hc).1
  · intro h c hc
    have hb : s.born[c.timer.ref]? = some c.timer.toTimerInfo := hl.traced.returningBorn c hc
    exact ⟨h _ ⟨c, hc, rfl⟩, by rw [hb]; rfl⟩

theorem Pc.done_mem {p : Pc} {t : Timer} (h : t ∈ p.done) : p = .after t := by
  cases p with
  | after u => rw [List.mem_singleton.mp h]
  | _ => exact absurd h List.not_mem_nil

/-- A timer that is about to be linked is not freed. -/
theorem Inv.creating_not_freed {s : State} (hi : Inv s) {c : Creation} (hc : c ∈ s.creating) :
    c.timer.ref ∉ s.freed := by
  intro hf
  have h₁ := hi.good.place_unique c.timer.ref
  have h₂ := one_le_count_creating hc
  have h₃ := List.one_le_count_iff.mpr hf
  unfold Store.places State.store at h₁
  simp only at h₁
  omega

/-- Such a step leaves a creator with a freed node. -/
theorem FreesUnread.frees {a : Label} {s s' : State} (h : FreesUnread s a)
    (hs : step a s = some s') : ¬ s'.UnreadLive := by
  have freed : ∀ r, s.Unread r → s'.returning = s.returning → r ∈ s'.freed → ¬ s'.UnreadLive := by
    intro r hr hret hf hlive
    refine hlive r ?_ hf
    unfold State.Unread
    rw [hret]
    exact hr
  cases a with
  | cancel pid id =>
    obtain ⟨pos, ⟨t, rest⟩, found, hu⟩ := h
    obtain ⟨-, he⟩ := Option.ite_none_right_eq_some.mp hs
    unfold schedulerCancel at he
    rw [if_neg (Int.not_le.mpr pos), found] at he
    cases he
    exact freed t.ref hu rfl List.mem_cons_self
  | relock now =>
    obtain ⟨t, ht, last, hu⟩ := h
    have at_ : s.pc = .after t := Pc.done_mem ht
    simp only [step, at_, Scheduler.relock, if_neg last] at hs
    cases hs
    exact freed t.ref hu rfl List.mem_cons_self
  | cleanup c =>
    obtain ⟨t, ht, hu⟩ := h
    obtain ⟨-, he⟩ := Option.ite_none_right_eq_some.mp hs
    cases he
    exact freed t.ref hu rfl (List.mem_append_left _ (List.mem_map_of_mem ht))
  | _ => exact h.elim

/-- Freeing one timer keeps the unread ones live, if it is none of them. -/
theorem State.UnreadLive.free {s s' : State} (h : s.UnreadLive) {t : Timer}
    (hn : ¬ s.Unread t.ref) (hret : s'.returning = s.returning)
    (hfreed : s'.freed = t.ref :: s.freed) : s'.UnreadLive := by
  intro r hr hf
  unfold State.Unread at hr
  rw [hret] at hr
  rw [hfreed] at hf
  rcases List.mem_cons.mp hf with rfl | hf
  · exact hn hr
  · exact h r hr hf

/-- **One step.** Where no creator holds a freed node, a step leaves it so exactly when it does not
free a timer that its creator has still to read. -/
theorem step_unreadLive {a : Label} {s s' : State} (hi : Inv s) (h : s.UnreadLive)
    (hs : step a s = some s') : s'.UnreadLive ↔ ¬ FreesUnread s a := by
  refine ⟨fun hlive hf => hf.frees hs hlive, fun hn => ?_⟩
  cases step_turn hs with
  | init | refused | after | every | shutdown | lock | exit | sleep | pop | call | cbReturn
    | cbCrash | connect | missed | rearm => exact h
  | @insert i c at_ =>
    rintro r ⟨d, hd, rfl⟩
    rcases List.mem_append.mp hd with hd | hd
    · exact h _ ⟨d, hd, rfl⟩
    · obtain rfl := List.mem_singleton.mp hd
      exact hi.creating_not_freed (List.mem_of_getElem? at_)
  | ret =>
    rintro r ⟨d, hd, rfl⟩
    exact h _ ⟨d, List.mem_of_mem_eraseIdx hd, rfl⟩
  | @cancel pid id t rest _ pos found =>
    exact h.free (fun hu => hn ⟨pos, _, found, hu⟩) rfl rfl
  | @release now t at_ last =>
    have ht : t ∈ s.pc.done := by rw [at_]; exact List.mem_cons_self
    exact h.free (fun hu => hn ⟨t, ht, last, hu⟩) rfl rfl
  | cleanup =>
    intro r hr hf
    rcases List.mem_append.mp hf with hf | hf
    · obtain ⟨t, ht, rfl⟩ := List.mem_map.mp hf
      exact hn ⟨t, ht, hr⟩
    · exact h r hr hf

/-- **A creator reads its timer.** In every run: in every state of it, the creators that have still
to read `t->id` hold nodes that are not freed, and read the ids assigned to their timers, if and
only if no step of the run frees a timer that its creator has still to read. -/
theorem creator_reads_live_iff {as : List Label} {u : State} (h : machine.run as init = some u) :
    (∀ bs t, bs <+: as → machine.run bs init = some t → t.ReadsLive) ↔
      machine.Meets (fun s a => ¬ FreesUnread s a) as init := by
  refine Machine.prefixes_iff_meets live_keeps (fun s a s' hl _ hp hs => ?_) live_init
    (Machine.Meets.of_forall (fun _ _ => trivial) as init) (by simp [State.ReadsLive, init]) h
  have hl' : Live s' := live_keeps s a s' hl trivial hs
  rw [hl'.readsLive_iff]
  exact step_unreadLive hl.inv (hl.readsLive_iff.mp hp) hs

/-- A timer is created and comes due while its creator waits to go on: the thread calls it, frees
it, and the creator reads `t->id`. -/
def lateCreator : List Label :=
  [.init true, .after ⟨1, 0, 1, 0, true, 0⟩, .insert 0, .lock, .loop 0, .call, .cbReturn, .relock 0]

/-- **A creator reads a freed timer.** With `ms` 0 the timer is due at once; the thread frees it
after its callback, and the creator's read of `t->id` comes next. -/
theorem creator_reads_freed :
    ∃ s s' c, machine.run lateCreator init = some s ∧ s.returning = [c] ∧
      c.timer.ref ∈ s.freed ∧ ¬ s.ReadsLive ∧ machine.step (.ret 0) s = some s' :=
  ⟨_, _, _, rfl, rfl, by decide, by decide, rfl⟩

/-- Where the creator goes on before the thread has taken the lock, it reads a live timer. -/
theorem creator_reads_live_iff_prompt :
    ∃ u, machine.run [.init true, .after ⟨1, 0, 1, 0, true, 0⟩, .insert 0, .ret 0, .lock, .loop 0,
        .call, .cbReturn, .relock 0] init = some u ∧
      ∀ bs t, bs <+: [.init true, .after ⟨1, 0, 1, 0, true, 0⟩, .insert 0, .ret 0, .lock, .loop 0,
        .call, .cbReturn, .relock 0] → machine.run bs init = some t → t.ReadsLive :=
  ⟨_, rfl, (creator_reads_live_iff rfl).mpr (by decide)⟩

end Scheduler
end CoreCDTL
