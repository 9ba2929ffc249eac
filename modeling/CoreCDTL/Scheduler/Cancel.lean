import CoreCDTL.Scheduler.Order

/-!
# The scheduler: `scheduler_cancel`

`scheduler_cancel` searches the list only. A timer whose callback is about to run, runs or has just
returned is in no list: it is in the scheduler thread's hand.

* `Store.Traced`: the id of a timer, and what is known of one whose creation has returned. Below
  `2 ^ 31 - 1` creations the ids are the numbers from 1 on.
* `freed_never_fires`: no step calls a freed timer.
* `cancel_iff`: a live repeating timer is cancelled, with 0 and for good, if and only if it is not
  in the thread's hand.
* `cancel_in_callback`: a callback that cancels its own timer gets -1 and is called again.
-/

namespace CoreCDTL
namespace Scheduler

/-- The ids, and the timers whose creation has linked them. -/
structure Store.Traced (b : Store) : Prop where
  nextId : b.nextId = ((b.born.length : Int) + 1).bmod (2 ^ 32)
  bornId : ∀ t ∈ b.born, t.id = ((t.ref : Int) + 1).bmod (2 ^ 32)
  returningBorn : ∀ c ∈ b.returning, b.born[c.timer.ref]? = some c.timer.toTimerInfo
  returnedBorn : ∀ t ∈ b.returned, b.born[t.ref]? = some t
  returningLinked : ∀ c ∈ b.returning, ∀ d ∈ b.creating, c.timer.ref ≠ d.timer.ref
  returnedLinked : ∀ t ∈ b.returned, ∀ d ∈ b.creating, t.ref ≠ d.timer.ref

/-- A repeating timer is freed by `scheduler_cancel` only. -/
def Store.FreedWhy (b : Store) : Prop :=
  ∀ t ∈ b.born, t.repeating = true → t.ref ∈ b.freed → t.ref ∈ b.cancelled

/-- The timer at an index is the one with that number. -/
theorem Store.Good.born_eq {b : Store} (hg : b.Good) {t u : TimerInfo} (ht : t ∈ b.born)
    (hu : b.born[u.ref]? = some u) (h : t.ref = u.ref) : t = u := by
  obtain ⟨i, hi⟩ := List.getElem?_of_mem ht
  have := hg.bornRef i t hi
  rw [← h, this, hi] at hu
  exact Option.some.inj hu

theorem Store.Good.not_creating_twice {b : Store} (hg : b.Good) {i : Nat} {c d : Creation}
    (hc : b.creating[i]? = some c) (hd : d ∈ b.creating.eraseIdx i) :
    c.timer.ref ≠ d.timer.ref := by
  intro h
  have h₁ := hg.place_unique c.timer.ref
  have h₂ := one_le_count_creating hd
  unfold Store.places at h₁
  rw [count_eraseIdx hc, if_pos rfl] at h₁
  rw [← h] at h₂
  omega

theorem Store.Move.traced {P : Prop} {b b' : Store} (hm : Store.Move P b b') (hg : b.Good)
    (ht : b.Traced) : b'.Traced := by
  cases hm with
  | draw t ms href hid =>
    have fresh : ∀ {u : TimerInfo}, b.born[u.ref]? = some u → u.ref ≠ t.ref := by
      intro u hu h
      have := Store.Good.ref_lt hu
      omega
    refine ⟨?_, ?_, ?_, ?_, ?_, ?_⟩
    · simp only [ht.nextId, List.length_append, List.length_singleton, Int.bmod_add_bmod]
      push_cast
      rfl
    · intro u hu
      rcases List.mem_append.mp hu with hu | hu
      · exact ht.bornId u hu
      · obtain rfl := List.mem_singleton.mp hu
        rw [hid, ht.nextId, href]
    · exact fun c hc => getElem?_append_some (ht.returningBorn c hc)
    · exact fun u hu => getElem?_append_some (ht.returnedBorn u hu)
    · intro c hc d hd
      rcases List.mem_append.mp hd with hd | hd
      · exact ht.returningLinked c hc d hd
      · obtain rfl := List.mem_singleton.mp hd
        exact fresh (ht.returningBorn c hc)
    · intro u hu d hd
      rcases List.mem_append.mp hd with hd | hd
      · exact ht.returnedLinked u hu d hd
      · obtain rfl := List.mem_singleton.mp hd
        exact fresh (ht.returnedBorn u hu)
  | link i c hc =>
    refine { ht with
      nextId := ht.nextId
      returningBorn := fun d hd => ?_
      returningLinked := fun d hd e he => ?_
      returnedLinked := fun u hu e he => ht.returnedLinked u hu e (List.mem_of_mem_eraseIdx he) }
    · rcases List.mem_append.mp hd with hd | hd
      · exact ht.returningBorn d hd
      · obtain rfl := List.mem_singleton.mp hd
        exact hg.creatingBorn d (List.mem_of_getElem? hc)
    · rcases List.mem_append.mp hd with hd | hd
      · exact ht.returningLinked d hd e (List.mem_of_mem_eraseIdx he)
      · obtain rfl := List.mem_singleton.mp hd
        exact hg.not_creating_twice hc he
  | ret i c hc =>
    have hcm := List.mem_of_getElem? hc
    refine { ht with
      nextId := ht.nextId
      returningBorn := fun d hd => ht.returningBorn d (List.mem_of_mem_eraseIdx hd)
      returnedBorn := fun u hu => ?_
      returningLinked := fun d hd => ht.returningLinked d (List.mem_of_mem_eraseIdx hd)
      returnedLinked := fun u hu => ?_ }
    · rcases List.mem_cons.mp hu with rfl | hu
      · exact ht.returningBorn c hcm
      · exact ht.returnedBorn u hu
    · rcases List.mem_cons.mp hu with rfl | hu
      · exact ht.returningLinked c hcm
      · exact ht.returnedLinked u hu
  | _ => exact { ht with nextId := ht.nextId }

theorem Store.Move.freedWhy {P : Prop} {b b' : Store} (hm : Store.Move P b b') (hg : b.Good)
    (hP : ¬ P) (hf : b.FreedWhy) : b'.FreedWhy := by
  cases hm with
  | draw t ms href hid =>
    intro u hu hr hfr
    rcases List.mem_append.mp hu with hu | hu
    · exact hf u hu hr hfr
    · obtain rfl := List.mem_singleton.mp hu
      -- Nothing is known under the next number yet.
      have h := hg.owned t.ref
      have h₁ := List.one_le_count_iff.mpr hfr
      unfold Store.places at h
      rw [if_neg (by omega)] at h
      simp only at h₁
      omega
  | release t hp hc hr =>
    intro u hu hur hfr
    rcases List.mem_cons.mp hfr with he | hfr
    · have hb := hg.handBorn t (by rw [hc]; simp)
      have : u = t.toTimerInfo := hg.born_eq hu hb he
      rw [this] at hur
      exact absurd (hr hur) hP
    · exact hf u hu hur hfr
  | cancel pid id t rest ht =>
    intro u hu hur hfr
    rcases List.mem_cons.mp hfr with he | hfr
    · exact he ▸ List.mem_cons_self
    · exact List.mem_cons_of_mem _ (hf u hu hur hfr)
  | clear hs => exact absurd hs hP
  | _ => exact hf

/-- What is known of the ids and of the freed timers after every run. -/
structure Live (s : State) : Prop where
  inv : Inv s
  traced : s.store.Traced
  freedWhy : ¬ s.Stopped → s.store.FreedWhy

theorem live_keeps : machine.Keeps (fun _ _ => True) Live := by
  rintro s a s' ⟨hi, ht, hf⟩ - h
  have hns : ¬ s'.Stopped → ¬ s.Stopped := fun hn hs => hn ((step_stopped h).1 hs)
  refine ⟨inv_keeps s a s' hi trivial h, ?_, fun hn => ?_⟩
  · rcases step_moves hi.stops h with he | hm
    · exact he ▸ ht
    · exact hm.traced hi.good ht
  · rcases step_moves hi.stops h with he | hm
    · exact he ▸ hf (hns hn)
    · exact hm.freedWhy hi.good (hns hn) (hf (hns hn))

theorem live_init : Live init where
  inv := Reach.inv ⟨init, [], rfl, rfl⟩
  traced := by
    refine ⟨by decide, ?_, ?_, ?_, ?_, ?_⟩ <;> simp [init, State.store]
  freedWhy := fun _ => by simp [Store.FreedWhy, init, State.store]

theorem Reach.live {s : State} (hs : Reach s) : Live s :=
  live_keeps.reach (by rintro _ rfl; exact live_init) hs

/-! ## Freed timers -/

theorem Store.Move.freed_mono {P : Prop} {b b' : Store} (hm : Store.Move P b b') {r : Nat}
    (hr : r ∈ b.freed) : r ∈ b'.freed := by
  cases hm with
  | release t => exact List.mem_cons_of_mem _ hr
  | cancel => exact List.mem_cons_of_mem _ hr
  | clear => exact List.mem_append_right _ hr
  | _ => exact hr

/-- A freed timer is in nobody's hand, so it is not called. -/
theorem freed_keeps (r n : Nat) :
    machine.Keeps (fun _ _ => True) fun s => Inv s ∧ r ∈ s.freed ∧ s.fired.count r = n := by
  rintro s a s' ⟨hi, hr, hn⟩ - h
  refine ⟨inv_keeps s a s' hi trivial h, ?_, ?_⟩
  · rcases step_moves hi.stops h with he | hm
    · show r ∈ s'.store.freed
      rw [he]; exact hr
    · exact hm.freed_mono hr
  · rcases step_fired hi h with he | ⟨t, hp, he⟩
    · rw [he]; exact hn
    · have hne : t.ref ≠ r := by
        rintro rfl
        have h₁ := hi.good.place_unique t.ref
        have h₂ : s.store.popped = [t] := by simp [State.store, hp, Pc.uncalled]
        have h₃ : 1 ≤ s.store.freed.count t.ref := List.one_le_count_iff.mpr hr
        unfold Store.places at h₁
        rw [h₂] at h₁
        simp only [List.map_cons, List.map_nil, List.count_cons_self] at h₁
        omega
      rw [he, List.count_cons_of_ne hne]
      exact hn

/-- **A freed timer never fires.** -/
theorem freed_never_fires {s s' : State} {as : List Label} {r : Nat} (hi : Inv s)
    (hr : r ∈ s.freed) (h : machine.run as s = some s') : s'.fired.count r = s.fired.count r :=
  ((freed_keeps r _).run_all ⟨hi, hr, rfl⟩ h).2.2

/-! ## Cancelling a live timer -/

/-- Up to `2 ^ 31 - 1` creations, the ids are the numbers from 1 on. -/
theorem Live.id_eq {s : State} (hl : Live s) (hc : s.born.length ≤ 2 ^ 31 - 1) {t : TimerInfo}
    (ht : s.born[t.ref]? = some t) : t.id = t.ref + 1 := by
  have hlt : t.ref < s.born.length := @Store.Good.ref_lt s.store t ht
  rw [hl.traced.bornId t (List.mem_of_getElem? ht)]
  exact Int.bmod_eq_of_le (by omega) (by omega)

/-- A timer in the list that has the id of `t` is `t`. -/
theorem Live.ref_eq {s : State} (hl : Live s) (hc : s.born.length ≤ 2 ^ 31 - 1) {t : TimerInfo}
    (ht : s.born[t.ref]? = some t) {u : Timer} (hu : u ∈ s.timers) (h : u.id = t.id) :
    u.ref = t.ref := by
  have h₁ := hl.id_eq hc ht
  have h₂ := hl.id_eq hc (hl.inv.good.timersBorn u hu)
  omega

/-- A live repeating timer is in the list or in the thread's hand. -/
theorem Live.in_list_or_hand {s : State} (hl : Live s) {t : TimerInfo} (ht : t ∈ s.returned)
    (hr : t.repeating = true) (hn : t.ref ∉ s.cancelled) (hst : ¬ s.Stopped) :
    (∃ u ∈ s.timers, u.ref = t.ref) ∨ ∃ u ∈ s.pc.hand, u.ref = t.ref := by
  have hb := hl.traced.returnedBorn t ht
  have hlt : t.ref < s.store.born.length := Store.Good.ref_lt hb
  have hp := hl.inv.good.owned t.ref
  rw [if_pos hlt, ← State.places_eq] at hp
  have hfreed : s.freed.count t.ref = 0 := List.count_eq_zero_of_not_mem fun hf =>
    hn (hl.freedWhy hst t (List.mem_of_getElem? hb) hr hf)
  have hcreating : (s.creating.map fun c => c.timer.ref).count t.ref = 0 := by
    apply List.count_eq_zero_of_not_mem
    intro hm
    obtain ⟨d, hd, he⟩ := List.mem_map.mp hm
    exact hl.traced.returnedLinked t ht d hd he.symm
  unfold State.places at hp
  have hone : 0 < (s.timers.map fun t => t.ref).count t.ref ∨
      0 < (s.pc.hand.map fun t => t.ref).count t.ref := by omega
  rcases hone with h | h
  · obtain ⟨u, hu, he⟩ := List.mem_map.mp (List.count_pos_iff.mp h)
    exact .inl ⟨u, hu, he⟩
  · obtain ⟨u, hu, he⟩ := List.mem_map.mp (List.count_pos_iff.mp h)
    exact .inr ⟨u, hu, he⟩

/-- A timer in the thread's hand is not in the list. -/
theorem Live.not_in_list {s : State} (hl : Live s) {u v : Timer} (hu : u ∈ s.pc.hand)
    (hv : v ∈ s.timers) : v.ref ≠ u.ref := by
  intro h
  have hp := hl.inv.good.place_unique u.ref
  have h₁ := one_le_count hu
  have h₂ := one_le_count hv
  rw [h] at h₂
  rw [← State.places_eq] at hp
  unfold State.places at hp
  omega

/-- **Cancelling a live repeating timer.** In every reachable state with fewer than `2 ^ 31 - 1`
timers created, for a timer that `scheduler_every_ms` returned, that was not cancelled, and while
the scheduler is not shut down: `scheduler_cancel` returns 0 and the timer is never called again,
if and only if the timer is not in the scheduler thread's hand. -/
theorem cancel_iff {s : State} (hs : Reach s) (hc : s.born.length < 2 ^ 31 - 1) {t : TimerInfo}
    (ht : t ∈ s.returned) (hr : t.repeating = true) (hn : t.ref ∉ s.cancelled)
    (hst : ¬ s.Stopped) :
    ((schedulerCancel t.pluginId t.id s).1 = 0 ∧
      ∀ as s', machine.run as (schedulerCancel t.pluginId t.id s).2 = some s' →
        s'.fired.count t.ref = s.fired.count t.ref) ↔
      ∀ u ∈ s.pc.hand, u.ref ≠ t.ref := by
  have hl := hs.live
  have hb := hl.traced.returnedBorn t ht
  have hid := hl.id_eq (Nat.le_of_lt hc) hb
  have hpos : ¬ t.id ≤ 0 := by omega
  constructor
  · -- In the hand it is in no list, and the search finds nothing.
    rintro ⟨h0, -⟩ u hu he
    have hnone : removeTimer t.pluginId t.id s.timers = none := by
      rw [removeTimer_none]
      rintro v hv ⟨hvid, -⟩
      exact hl.not_in_list hu hv ((hl.ref_eq (Nat.le_of_lt hc) hb hv hvid).trans he.symm)
    unfold schedulerCancel at h0
    rw [if_neg hpos, hnone] at h0
    cases h0
  · intro hhand
    obtain ⟨u, hu, he⟩ : ∃ u ∈ s.timers, u.ref = t.ref := by
      rcases hl.in_list_or_hand ht hr hn hst with h | ⟨u, hu, he⟩
      · exact h
      · exact absurd he (hhand u hu)
    have hut : u.toTimerInfo = t := by
      have h := hl.inv.good.timersBorn u hu
      rw [he] at h
      exact Option.some.inj (h.symm.trans hb)
    cases hrem : removeTimer t.pluginId t.id s.timers with
    | none =>
      have h := removeTimer_none.mp hrem u hu
      rw [show u.id = t.id by rw [hut], show u.pluginId = t.pluginId by rw [hut]] at h
      exact absurd ⟨rfl, rfl⟩ h
    | some p =>
      obtain ⟨v, rest⟩ := p
      obtain ⟨xs, ys, hlist, -, hvid, -⟩ := removeTimer_some hrem
      have hv : v.ref = t.ref := hl.ref_eq (Nat.le_of_lt hc) hb (by rw [hlist]; simp) hvid
      have hcan : schedulerCancel t.pluginId t.id s =
          (0, { s.free v with timers := rest, cancelled := v.ref :: s.cancelled }) := by
        unfold schedulerCancel
        rw [if_neg hpos, hrem]
      have hg := (@Store.Move.cancel s.Stopped s.store _ _ v rest hrem).good hl.inv.good
      rw [hcan]
      refine ⟨rfl, fun as s' h => ?_⟩
      exact @freed_never_fires { s.free v with timers := rest, cancelled := v.ref :: s.cancelled }
        s' as t.ref ⟨hl.inv.stops, hg⟩ (by rw [← hv]; exact List.mem_cons_self) h

/-- The run up to the first callback of a repeating timer of plugin 1 with 10 ms. -/
def callbackRun : List Label :=
  [.init true, .every ⟨1, 10, 1, 0, true, 0⟩, .insert 0, .ret 0, .lock, .loop 10, .call]

/-- **Cancel from inside the callback.** The timer with the id 1 was returned for plugin 1, was not
cancelled, and the scheduler runs; its callback calls `scheduler_cancel(1, 1)`. The call returns
-1, and after the callback the timer is armed again and called again. -/
theorem cancel_in_callback :
    ∃ s s' t, machine.run callbackRun init = some s ∧ t ∈ s.returned ∧ t.repeating = true ∧
      t.pluginId = 1 ∧ t.id = 1 ∧ t.ref ∉ s.cancelled ∧ ¬ s.Stopped ∧
      (schedulerCancel 1 1 s).1 = -1 ∧
      machine.run [.cancel 1 1, .cbReturn, .relock 10, .loop 20, .call] s = some s' ∧
      s.fired.count t.ref = 1 ∧ s'.fired.count t.ref = 2 :=
  ⟨_, _, ⟨0, 1, 10, 1, 0, 1, true⟩, rfl, by decide, rfl, rfl, rfl, by decide, by decide, rfl, rfl,
    by decide, by decide⟩

/-- While the timer waits in the list, its cancellation succeeds for good. -/
theorem cancel_iff_waiting :
    ∃ s, machine.run (callbackRun.take 4) init = some s ∧
      ((schedulerCancel 1 1 s).1 = 0 ∧
        ∀ as s', machine.run as (schedulerCancel 1 1 s).2 = some s' →
          s'.fired.count 0 = s.fired.count 0) :=
  ⟨_, rfl, (@cancel_iff _ ⟨init, callbackRun.take 4, rfl, rfl⟩ (by decide)
    ⟨0, 1, 10, 1, 0, 1, true⟩ (by decide) rfl (by decide) (by decide)).mpr (by decide)⟩

end Scheduler
end CoreCDTL
