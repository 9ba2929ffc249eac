import CoreCDTL.Scheduler.Timers
import Mathlib.Data.List.Perm.Basic

/-!
# The scheduler: who owns a timer

`Store` is what the scheduler does with its timers, without threads, locks and messages. A timer
is created, linked into the list, popped, called, then linked again or released; or it is cancelled
or cleared while it is in the list.

* `Store.Move`: the nine things that can happen to the store. `step_moves`: every step of the
  machine is one of them or leaves the store alone, so the machine refines the store.
* `Store.Good`: the list is sorted by due time, equal ones in order of insertion; every timer is at
  exactly one place; a one-shot timer that was called is at no place from which it is called.
  `Store.Move.good`: every move keeps it. `Reach.good`: it holds after every run.
-/

namespace CoreCDTL
namespace Scheduler

/-- The order of `g_timers`: by due time, equal ones by insertion. -/
def Timer.Before (a b : Timer) : Prop := a.dueMs < b.dueMs ∨ a.dueMs = b.dueMs ∧ a.seq < b.seq

/-- The timers and where they are. `popped` and `called` are the thread's hand before and after
the callback has started. -/
structure Store where
  born : List TimerInfo
  nextId : Int
  creating : List Creation
  returning : List Creation
  returned : List TimerInfo
  timers : List Timer
  popped : List Timer
  called : List Timer
  freed : List Nat
  fired : List Nat
  cancelled : List Nat
  inserted : Nat

/-- The popped timer before its callback. -/
def Pc.uncalled : Pc → List Timer
  | .popped t => [t]
  | _ => []

/-- The popped timer from its callback on. -/
def Pc.called : Pc → List Timer
  | .calling t => [t]
  | .after t => [t]
  | _ => []

theorem Pc.hand_eq (p : Pc) : p.hand = p.uncalled ++ p.called := by cases p <;> rfl

/-- The scheduler was started and told to stop. -/
def State.Stopped (s : State) : Prop := s.pc ≠ .absent ∧ s.running = false

instance (s : State) : Decidable s.Stopped := inferInstanceAs (Decidable (_ ∧ _))

/-- The store of a state. -/
def State.store (s : State) : Store where
  born := s.born
  nextId := s.nextId
  creating := s.creating
  returning := s.returning
  returned := s.returned
  timers := s.timers
  popped := s.pc.uncalled
  called := s.pc.called
  freed := s.freed
  fired := s.fired
  cancelled := s.cancelled
  inserted := s.inserted

/-- What can happen to the store; `stopped` says whether the scheduler was shut down. -/
inductive Store.Move (stopped : Prop) (b : Store) : Store → Prop where
  | draw (t : Timer) (ms : Nat) (href : t.ref = b.born.length) (hid : t.id = b.nextId) :
    Move stopped b { b with
      nextId := (b.nextId + 1).bmod (2 ^ 32)
      born := b.born ++ [t.toTimerInfo]
      creating := b.creating ++ [⟨t, ms⟩] }
  | link (i : Nat) (c : Creation) (hc : b.creating[i]? = some c) :
    Move stopped b { b with
      creating := b.creating.eraseIdx i
      returning := b.returning ++ [c]
      timers := insertTimer { c.timer with seq := b.inserted } b.timers
      inserted := b.inserted + 1 }
  | ret (i : Nat) (c : Creation) (hc : b.returning[i]? = some c) :
    Move stopped b { b with
      returning := b.returning.eraseIdx i, returned := c.timer.toTimerInfo :: b.returned }
  | pop (t : Timer) (rest : List Timer) (ht : b.timers = t :: rest)
    (hp : b.popped = []) (hc : b.called = []) :
    Move stopped b { b with timers := rest, popped := [t], called := [] }
  | fire (t : Timer) (hp : b.popped = [t]) (hc : b.called = []) :
    Move stopped b { b with popped := [], called := [t], fired := t.ref :: b.fired }
  | rearm (t : Timer) (due now : Nat) (hp : b.popped = []) (hc : b.called = [t])
    (hr : t.repeating = true) :
    Move stopped b { b with
      popped := []
      called := []
      timers := insertTimer { t with dueMs := due, armed := now, seq := b.inserted } b.timers
      inserted := b.inserted + 1 }
  | release (t : Timer) (hp : b.popped = []) (hc : b.called = [t])
    (hr : t.repeating = true → stopped) :
    Move stopped b { b with popped := [], called := [], freed := t.ref :: b.freed }
  | cancel (pid : Nat) (id : Int) (t : Timer) (rest : List Timer)
    (ht : removeTimer pid id b.timers = some (t, rest)) :
    Move stopped b { b with
      timers := rest, freed := t.ref :: b.freed, cancelled := t.ref :: b.cancelled }
  | clear (hs : stopped) :
    Move stopped b { b with timers := [], freed := b.timers.map (·.ref) ++ b.freed }

/-! ## The list of timers -/

theorem insertAfter_perm (t : Timer) (l : List Timer) : (insertAfter t l).Perm (t :: l) := by
  induction l with
  | nil => exact List.Perm.refl _
  | cons n rest ih =>
    rw [insertAfter]
    split
    · exact (ih.cons n).trans (List.Perm.swap t n rest)
    · exact List.Perm.refl _

theorem insertTimer_perm (t : Timer) (l : List Timer) : (insertTimer t l).Perm (t :: l) := by
  cases l with
  | nil => exact List.Perm.refl _
  | cons h rest =>
    rw [insertTimer]
    split
    · exact List.Perm.refl _
    · exact ((insertAfter_perm t rest).cons h).trans (List.Perm.swap t h rest)

theorem mem_insertTimer {t u : Timer} {l : List Timer} :
    u ∈ insertTimer t l ↔ u = t ∨ u ∈ l := by
  rw [(insertTimer_perm t l).mem_iff, List.mem_cons]

theorem Timer.Before.trans {a b c : Timer} (h₁ : a.Before b) (h₂ : b.Before c) : a.Before c := by
  unfold Timer.Before at *
  omega

/-- Behind a node that is not due later, the new timer goes behind all that are not. -/
theorem insertAfter_sorted {t : Timer} {l : List Timer} (hl : l.Pairwise Timer.Before)
    (hseq : ∀ u ∈ l, u.seq < t.seq) : (insertAfter t l).Pairwise Timer.Before := by
  induction l with
  | nil => exact List.pairwise_singleton _ _
  | cons n rest ih =>
    obtain ⟨hn, hrest⟩ := List.pairwise_cons.mp hl
    have hns := hseq n (by simp)
    rw [insertAfter]
    split
    · rename_i hle
      refine List.pairwise_cons.mpr ⟨fun u hu => ?_, ih hrest fun u hu => hseq u (by simp [hu])⟩
      rcases List.mem_cons.mp ((insertAfter_perm t rest).mem_iff.mp hu) with rfl | hu
      · unfold Timer.Before; omega
      · exact hn u hu
    · rename_i hlt
      have htn : t.Before n := .inl (by omega)
      refine List.pairwise_cons.mpr ⟨fun u hu => ?_, hl⟩
      rcases List.mem_cons.mp hu with rfl | hu
      · exact htn
      · exact htn.trans (hn u hu)

/-- **Insertion keeps the order**, the new timer behind the older ones that are due with it. -/
theorem insertTimer_sorted {t : Timer} {l : List Timer} (hl : l.Pairwise Timer.Before)
    (hseq : ∀ u ∈ l, u.seq < t.seq) : (insertTimer t l).Pairwise Timer.Before := by
  cases l with
  | nil => exact List.pairwise_singleton _ _
  | cons h rest =>
    obtain ⟨hh, hrest⟩ := List.pairwise_cons.mp hl
    have hhs := hseq h (by simp)
    rw [insertTimer]
    split
    · rename_i hlt
      have hth : t.Before h := .inl hlt
      refine List.pairwise_cons.mpr ⟨fun u hu => ?_, hl⟩
      rcases List.mem_cons.mp hu with rfl | hu
      · exact hth
      · exact hth.trans (hh u hu)
    · rename_i hge
      refine List.pairwise_cons.mpr
        ⟨fun u hu => ?_, insertAfter_sorted hrest fun u hu => hseq u (by simp [hu])⟩
      rcases List.mem_cons.mp ((insertAfter_perm t rest).mem_iff.mp hu) with rfl | hu
      · unfold Timer.Before; omega
      · exact hh u hu

/-- The search finds the first timer with the id and the plugin. -/
theorem removeTimer_some {pid : Nat} {id : Int} {l rest : List Timer} {t : Timer}
    (h : removeTimer pid id l = some (t, rest)) :
    ∃ xs ys, l = xs ++ t :: ys ∧ rest = xs ++ ys ∧ t.id = id ∧ t.pluginId = pid ∧
      ∀ u ∈ xs, ¬ (u.id = id ∧ u.pluginId = pid) := by
  induction l generalizing rest with
  | nil => cases h
  | cons u l ih =>
    rw [removeTimer] at h
    split at h
    · rename_i hu
      cases h
      exact ⟨[], l, rfl, rfl, hu.1, hu.2, by simp⟩
    · rename_i hu
      obtain ⟨p, hp, he⟩ := Option.map_eq_some_iff.mp h
      cases he
      obtain ⟨xs, ys, rfl, hr, hid, hpid, hxs⟩ := ih hp
      refine ⟨u :: xs, ys, rfl, by rw [hr]; rfl, hid, hpid, fun v hv => ?_⟩
      rcases List.mem_cons.mp hv with rfl | hv
      · exact hu
      · exact hxs v hv

theorem removeTimer_none {pid : Nat} {id : Int} {l : List Timer} :
    removeTimer pid id l = none ↔ ∀ t ∈ l, ¬ (t.id = id ∧ t.pluginId = pid) := by
  induction l with
  | nil => simp [removeTimer]
  | cons u l ih =>
    rw [removeTimer, List.forall_mem_cons, ← ih]
    split
    · simp [*]
    · simp [*]

/-! ## The machine refines the store -/

theorem draw_moves (c : CreateArgs) (repeating : Bool) (P : Prop) (s : State) :
    Store.Move P s.store (s.draw c repeating).store :=
  .draw (s.newTimer c repeating) c.ms rfl rfl

/-- Only `scheduler_shutdown` has a call of itself under way, and it has stopped the scheduler. -/
def State.Stops (s : State) : Prop := s.shutdowns ≠ [] → s.Stopped

/-- **Refinement.** A step leaves the store alone or makes one of its moves. -/
theorem step_moves {a : Label} {s s' : State} (hst : s.Stops) (h : step a s = some s') :
    s'.store = s.store ∨ Store.Move s.Stopped s.store s'.store := by
  have same : ∀ u : State, u.store = { s.store with popped := u.pc.uncalled, called := u.pc.called } →
      u.pc.uncalled = s.pc.uncalled → u.pc.called = s.pc.called → u.store = s.store := by
    intro u hu hp hc
    rw [hu, hp, hc]
    rfl
  cases step_turn h with
  | refused => exact .inl rfl
  | @after c => exact .inr (draw_moves c false _ s)
  | @every c => exact .inr (draw_moves c true _ s)
  | insert at_ => exact .inr (.link _ _ at_)
  | ret at_ => exact .inr (.ret _ _ at_)
  | @cancel pid id t rest _ _ found => exact .inr (.cancel pid id t rest found)
  | missed => exact .inl rfl
  | shutdown => exact .inl rfl
  | cleanup _ mem => exact .inr (.clear (hst (List.ne_nil_of_mem mem)))
  | connect => exact .inl rfl
  | @init ok absent =>
    left
    cases ok <;> exact same _ rfl (by rw [absent]; rfl) (by rw [absent]; rfl)
  | lock at_ =>
    left
    rcases at_ with at_ | at_ <;> exact same _ rfl (by rw [at_]; rfl) (by rw [at_]; rfl)
  | exit at_ => exact .inl (same _ rfl (by rw [at_]; rfl) (by rw [at_]; rfl))
  | sleep at_ => exact .inl (same _ rfl (by rw [at_]; rfl) (by rw [at_]; rfl))
  | cbReturn at_ => exact .inl (same _ rfl (by rw [at_]; rfl) (by rw [at_]; rfl))
  | cbCrash at_ => exact .inl (same _ rfl (by rw [at_]; rfl) (by rw [at_]; rfl))
  | @pop now t rest at_ _ first =>
    have hu : s.store.popped = [] := congrArg Pc.uncalled at_
    have hc : s.store.called = [] := congrArg Pc.called at_
    exact .inr (.pop t rest first hu hc)
  | @call t at_ =>
    have hu : s.store.popped = [t] := congrArg Pc.uncalled at_
    have hc : s.store.called = [] := congrArg Pc.called at_
    exact .inr (.fire t hu hc)
  | @rearm now t at_ again =>
    have hu : s.store.popped = [] := congrArg Pc.uncalled at_
    have hc : s.store.called = [t] := congrArg Pc.called at_
    exact .inr (.rearm t (addMs now t.intervalMs) now hu hc again.1)
  | @release now t at_ last =>
    have hu : s.store.popped = [] := congrArg Pc.uncalled at_
    have hc : s.store.called = [t] := congrArg Pc.called at_
    exact .inr (.release t hu hc fun hr =>
      ⟨by rw [at_]; exact nofun, Bool.not_eq_true _ ▸ fun up => last ⟨hr, up⟩⟩)

/-! ## What every move keeps -/

/-- How often the timer `r` is being created, in the list, in the thread's hand, or freed. -/
def Store.places (b : Store) (r : Nat) : Nat :=
  (b.creating.map fun c => c.timer.ref).count r + (b.timers.map fun t => t.ref).count r +
    (b.popped.map fun t => t.ref).count r + (b.called.map fun t => t.ref).count r +
    b.freed.count r

/-- The invariant of the store. -/
structure Store.Good (b : Store) : Prop where
  sorted : b.timers.Pairwise Timer.Before
  seqLt : ∀ t ∈ b.timers, t.seq < b.inserted
  owned : ∀ r, b.places r = if r < b.born.length then 1 else 0
  bornRef : ∀ (i : Nat) (t : TimerInfo), b.born[i]? = some t → t.ref = i
  creatingBorn : ∀ c ∈ b.creating, b.born[c.timer.ref]? = some c.timer.toTimerInfo
  timersBorn : ∀ t ∈ b.timers, b.born[t.ref]? = some t.toTimerInfo
  handBorn : ∀ t : Timer, t ∈ b.popped ++ b.called → b.born[t.ref]? = some t.toTimerInfo
  firedBorn : ∀ r ∈ b.fired, r < b.born.length
  creatingFresh : ∀ c ∈ b.creating, c.timer.ref ∉ b.fired
  timersFresh : ∀ t ∈ b.timers, t.repeating = false → t.ref ∉ b.fired
  poppedFresh : ∀ t ∈ b.popped, t.repeating = false → t.ref ∉ b.fired
  once : ∀ t ∈ b.born, t.repeating = false → b.fired.count t.ref ≤ 1

theorem Store.Good.ref_lt {b : Store} {t : TimerInfo} (h : b.born[t.ref]? = some t) :
    t.ref < b.born.length := (List.getElem?_eq_some_iff.mp h).1

/-- A look-up in `born` still finds what it found before a creation. -/
theorem getElem?_append_some {α : Type} {l : List α} {i : Nat} {x y : α} (h : l[i]? = some x) :
    (l ++ [y])[i]? = some x := by
  rw [List.getElem?_append_left (List.getElem?_eq_some_iff.mp h).1]; exact h

theorem count_eraseIdx {l : List Creation} {i : Nat} {c : Creation} (h : l[i]? = some c) (r : Nat) :
    (l.map fun c => c.timer.ref).count r =
      ((l.eraseIdx i).map fun c => c.timer.ref).count r + if c.timer.ref = r then 1 else 0 := by
  obtain ⟨hi, rfl⟩ := List.getElem?_eq_some_iff.mp h
  have hp := ((List.getElem_cons_eraseIdx_perm hi).map fun c => c.timer.ref).count_eq r
  rw [← hp, List.map_cons, List.count_cons]
  simp

theorem count_insertTimer (t : Timer) (l : List Timer) (r : Nat) :
    ((insertTimer t l).map fun t => t.ref).count r =
      (l.map fun t => t.ref).count r + if t.ref = r then 1 else 0 := by
  rw [((insertTimer_perm t l).map fun t => t.ref).count_eq r, List.map_cons, List.count_cons]
  simp

/-- A timer that is linked, held or being created is at no other place. -/
theorem Store.Good.place_unique {b : Store} (hg : b.Good) (r : Nat) : b.places r ≤ 1 := by
  rw [hg.owned]
  split <;> omega

/-- A timer in the list. -/
theorem one_le_count {l : List Timer} {t : Timer} (h : t ∈ l) :
    1 ≤ (l.map fun t => t.ref).count t.ref :=
  List.one_le_count_iff.mpr (List.mem_map_of_mem h)

theorem one_le_count_creating {l : List Creation} {c : Creation} (h : c ∈ l) :
    1 ≤ (l.map fun c => c.timer.ref).count c.timer.ref :=
  List.one_le_count_iff.mpr (List.mem_map_of_mem h)

theorem Store.Good.draw {b : Store} (hg : b.Good) {t : Timer} {ms : Nat}
    (href : t.ref = b.born.length) :
    Store.Good { b with
      nextId := (b.nextId + 1).bmod (2 ^ 32)
      born := b.born ++ [t.toTimerInfo]
      creating := b.creating ++ [⟨t, ms⟩] } where
  sorted := hg.sorted
  seqLt := hg.seqLt
  owned := by
    intro r
    have h := hg.owned r
    unfold Store.places at h ⊢
    simp only [List.map_append, List.map_cons, List.map_nil, List.count_append, List.count_cons,
      List.count_nil, List.length_append, List.length_singleton, href, beq_iff_eq] at h ⊢
    split at h <;> split <;> split <;> omega
  bornRef := by
    intro i u hu
    rcases Nat.lt_or_ge i b.born.length with hi | hi
    · rw [List.getElem?_append_left hi] at hu
      exact hg.bornRef i u hu
    · rw [List.getElem?_append_right hi] at hu
      obtain ⟨hj, rfl⟩ := List.getElem?_eq_some_iff.mp hu
      simp only [List.length_singleton, Nat.lt_one_iff] at hj
      simp only [List.getElem_singleton, href]
      omega
  creatingBorn := by
    intro c hc
    rcases List.mem_append.mp hc with hc | hc
    · exact getElem?_append_some (hg.creatingBorn c hc)
    · obtain rfl := List.mem_singleton.mp hc
      simp [href]
  timersBorn := fun u hu => getElem?_append_some (hg.timersBorn u hu)
  handBorn := fun u hu => getElem?_append_some (hg.handBorn u hu)
  firedBorn := by
    intro r hr
    have := hg.firedBorn r hr
    simp only [List.length_append, List.length_singleton]
    omega
  creatingFresh := by
    intro c hc hf
    rcases List.mem_append.mp hc with hc | hc
    · exact hg.creatingFresh c hc hf
    · obtain rfl := List.mem_singleton.mp hc
      have := hg.firedBorn _ hf
      simp only [href] at this
      omega
  timersFresh := hg.timersFresh
  poppedFresh := hg.poppedFresh
  once := by
    intro u hu hr
    rcases List.mem_append.mp hu with hu | hu
    · exact hg.once u hu hr
    · obtain rfl := List.mem_singleton.mp hu
      have hn : t.ref ∉ b.fired := fun hf => by
        have := hg.firedBorn _ hf
        omega
      simp only [List.count_eq_zero_of_not_mem hn, Nat.zero_le]

theorem Store.Good.link {b : Store} (hg : b.Good) {i : Nat} {c : Creation}
    (hc : b.creating[i]? = some c) :
    Store.Good { b with
      creating := b.creating.eraseIdx i
      returning := b.returning ++ [c]
      timers := insertTimer { c.timer with seq := b.inserted } b.timers
      inserted := b.inserted + 1 } where
  sorted := insertTimer_sorted hg.sorted hg.seqLt
  seqLt := by
    intro u hu
    rcases mem_insertTimer.mp hu with rfl | hu
    · exact Nat.lt_succ_self _
    · exact Nat.lt_succ_of_lt (hg.seqLt u hu)
  owned := by
    intro r
    have h := hg.owned r
    unfold Store.places at h ⊢
    rw [count_eraseIdx hc] at h
    simp only [count_insertTimer]
    omega
  bornRef := hg.bornRef
  creatingBorn := fun d hd => hg.creatingBorn d (List.mem_of_mem_eraseIdx hd)
  timersBorn := by
    intro u hu
    rcases mem_insertTimer.mp hu with rfl | hu
    · exact hg.creatingBorn c (List.mem_of_getElem? hc)
    · exact hg.timersBorn u hu
  handBorn := hg.handBorn
  firedBorn := hg.firedBorn
  creatingFresh := fun d hd => hg.creatingFresh d (List.mem_of_mem_eraseIdx hd)
  timersFresh := by
    intro u hu hr
    rcases mem_insertTimer.mp hu with rfl | hu
    · exact hg.creatingFresh c (List.mem_of_getElem? hc)
    · exact hg.timersFresh u hu hr
  poppedFresh := hg.poppedFresh
  once := hg.once

theorem Store.Good.pop {b : Store} (hg : b.Good) {t : Timer} {rest : List Timer}
    (ht : b.timers = t :: rest) (hp : b.popped = []) (hc : b.called = []) :
    Store.Good { b with timers := rest, popped := [t], called := [] } where
  sorted := by
    have h := hg.sorted
    rw [ht] at h
    exact (List.pairwise_cons.mp h).2
  seqLt := fun u hu => hg.seqLt u (by rw [ht]; exact List.mem_cons_of_mem _ hu)
  owned := by
    intro r
    have h := hg.owned r
    unfold Store.places at h ⊢
    rw [ht, hp, hc] at h
    simp only [List.map_cons, List.map_nil, List.count_cons, List.count_nil] at h ⊢
    omega
  bornRef := hg.bornRef
  creatingBorn := hg.creatingBorn
  timersBorn := fun u hu => hg.timersBorn u (by rw [ht]; exact List.mem_cons_of_mem _ hu)
  handBorn := by
    intro u hu
    obtain rfl : u = t := by simpa using hu
    exact hg.timersBorn u (by rw [ht]; simp)
  firedBorn := hg.firedBorn
  creatingFresh := hg.creatingFresh
  timersFresh := fun u hu => hg.timersFresh u (by rw [ht]; exact List.mem_cons_of_mem _ hu)
  poppedFresh := by
    intro u hu
    obtain rfl := List.mem_singleton.mp hu
    exact hg.timersFresh u (by rw [ht]; simp)
  once := hg.once

/-- The popped timer is neither being created nor in the list. -/
theorem Store.Good.popped_alone {b : Store} (hg : b.Good) {t : Timer} (hp : b.popped = [t]) :
    (∀ c ∈ b.creating, c.timer.ref ≠ t.ref) ∧ ∀ u ∈ b.timers, u.ref ≠ t.ref := by
  have h := hg.place_unique t.ref
  unfold Store.places at h
  rw [hp] at h
  simp only [List.map_cons, List.map_nil, List.count_cons_self] at h
  constructor
  · intro c hc he
    have h₁ := one_le_count_creating hc
    rw [he] at h₁
    omega
  · intro u hu he
    have h₁ := one_le_count hu
    rw [he] at h₁
    omega

/-- The called timer is at no place from which a timer is called. -/
theorem Store.Good.fire {b : Store} (hg : b.Good) {t : Timer} (hp : b.popped = [t])
    (hc : b.called = []) :
    Store.Good { b with popped := [], called := [t], fired := t.ref :: b.fired } where
  sorted := hg.sorted
  seqLt := hg.seqLt
  owned := by
    intro r
    have h := hg.owned r
    unfold Store.places at h ⊢
    rw [hp, hc] at h
    simp only [List.map_cons, List.map_nil, List.count_cons, List.count_nil] at h ⊢
    omega
  bornRef := hg.bornRef
  creatingBorn := hg.creatingBorn
  timersBorn := hg.timersBorn
  handBorn := by
    intro u hu
    exact hg.handBorn u (by rw [hp, hc]; simpa using hu)
  firedBorn := by
    intro r hr
    rcases List.mem_cons.mp hr with rfl | hr
    · exact Store.Good.ref_lt (hg.handBorn t (by rw [hp]; simp))
    · exact hg.firedBorn r hr
  creatingFresh := by
    intro c hcr hf
    change c ∈ b.creating at hcr
    rcases List.mem_cons.mp hf with he | hf
    · exact absurd he ((hg.popped_alone hp).1 c hcr)
    · exact hg.creatingFresh c hcr hf
  timersFresh := by
    intro u hu hr hf
    change u ∈ b.timers at hu
    rcases List.mem_cons.mp hf with he | hf
    · exact absurd he ((hg.popped_alone hp).2 u hu)
    · exact hg.timersFresh u hu hr hf
  poppedFresh := by simp
  once := by
    intro u hu hr
    have h₁ := hg.once u hu hr
    by_cases he : t.ref = u.ref
    · -- The popped timer is `u`, so it was not called before.
      obtain ⟨i, hi⟩ := List.getElem?_of_mem hu
      have hb := hg.handBorn t (by rw [hp]; simp)
      have hiu := hg.bornRef i u hi
      have htu : t.toTimerInfo = u := by
        rw [he, hiu, hi] at hb
        exact (Option.some.inj hb).symm
      have hfresh := hg.poppedFresh t (by rw [hp]; simp) (by rw [htu]; exact hr)
      rw [he] at hfresh ⊢
      rw [List.count_cons_self, List.count_eq_zero_of_not_mem hfresh]
    · rw [List.count_cons_of_ne he]
      exact h₁

theorem Store.Good.rearm {b : Store} (hg : b.Good) {t : Timer} {due now : Nat}
    (hp : b.popped = []) (hc : b.called = [t]) (hr : t.repeating = true) :
    Store.Good { b with
      popped := []
      called := []
      timers := insertTimer { t with dueMs := due, armed := now, seq := b.inserted } b.timers
      inserted := b.inserted + 1 } where
  sorted := insertTimer_sorted hg.sorted hg.seqLt
  seqLt := by
    intro u hu
    rcases mem_insertTimer.mp hu with rfl | hu
    · exact Nat.lt_succ_self _
    · exact Nat.lt_succ_of_lt (hg.seqLt u hu)
  owned := by
    intro r
    have h := hg.owned r
    unfold Store.places at h ⊢
    rw [hp, hc] at h
    simp only [count_insertTimer, List.map_cons, List.map_nil, List.count_cons, List.count_nil,
      beq_iff_eq] at h ⊢
    omega
  bornRef := hg.bornRef
  creatingBorn := hg.creatingBorn
  timersBorn := by
    intro u hu
    rcases mem_insertTimer.mp hu with rfl | hu
    · exact hg.handBorn t (by rw [hc]; simp)
    · exact hg.timersBorn u hu
  handBorn := by simp
  firedBorn := hg.firedBorn
  creatingFresh := hg.creatingFresh
  timersFresh := by
    intro u hu hur
    rcases mem_insertTimer.mp hu with rfl | hu
    · rw [hr] at hur; cases hur
    · exact hg.timersFresh u hu hur
  poppedFresh := by simp
  once := hg.once

theorem Store.Good.release {b : Store} (hg : b.Good) {t : Timer} (hp : b.popped = [])
    (hc : b.called = [t]) :
    Store.Good { b with popped := [], called := [], freed := t.ref :: b.freed } where
  sorted := hg.sorted
  seqLt := hg.seqLt
  owned := by
    intro r
    have h := hg.owned r
    unfold Store.places at h ⊢
    rw [hp, hc] at h
    simp only [List.map_cons, List.map_nil, List.count_cons, List.count_nil] at h ⊢
    omega
  bornRef := hg.bornRef
  creatingBorn := hg.creatingBorn
  timersBorn := hg.timersBorn
  handBorn := by simp
  firedBorn := hg.firedBorn
  creatingFresh := hg.creatingFresh
  timersFresh := hg.timersFresh
  poppedFresh := by simp
  once := hg.once

theorem Store.Good.cancel {b : Store} (hg : b.Good) {pid : Nat} {id : Int} {t : Timer}
    {rest : List Timer} (ht : removeTimer pid id b.timers = some (t, rest)) :
    Store.Good { b with
      timers := rest, freed := t.ref :: b.freed, cancelled := t.ref :: b.cancelled } := by
  obtain ⟨xs, ys, hl, hr, -⟩ := removeTimer_some ht
  have hsub : rest.Sublist b.timers := by
    rw [hl, hr]
    exact List.Sublist.append_left (List.sublist_cons_self t ys) xs
  refine { hg with
    sorted := hg.sorted.sublist hsub
    seqLt := fun u hu => hg.seqLt u (hsub.mem hu)
    owned := fun r => ?_
    timersBorn := fun u hu => hg.timersBorn u (hsub.mem hu)
    timersFresh := fun u hu => hg.timersFresh u (hsub.mem hu) }
  have h := hg.owned r
  unfold Store.places at h ⊢
  rw [hl] at h
  simp only [hr, List.map_append, List.map_cons, List.count_append, List.count_cons] at h ⊢
  omega

theorem Store.Good.clear {b : Store} (hg : b.Good) :
    Store.Good { b with timers := [], freed := b.timers.map (·.ref) ++ b.freed } := by
  refine { hg with
    sorted := List.Pairwise.nil
    seqLt := by simp
    owned := fun r => ?_
    timersBorn := by simp
    timersFresh := by simp }
  have h := hg.owned r
  unfold Store.places at h ⊢
  simp only [List.map_nil, List.count_nil, List.count_append] at h ⊢
  omega

/-- **Every move keeps the invariant.** -/
theorem Store.Move.good {P : Prop} {b b' : Store} (hm : Store.Move P b b') (hg : b.Good) :
    b'.Good := by
  cases hm with
  | draw t ms href => exact hg.draw href
  | link i c hc => exact hg.link hc
  | ret i c hc => exact { hg with sorted := hg.sorted }
  | pop t rest ht hp hc => exact hg.pop ht hp hc
  | fire t hp hc => exact hg.fire hp hc
  | rearm t due now hp hc hr => exact hg.rearm hp hc hr
  | release t hp hc => exact hg.release hp hc
  | cancel pid id t rest ht => exact hg.cancel ht
  | clear => exact hg.clear

theorem good_init : init.store.Good where
  sorted := List.Pairwise.nil
  seqLt := by simp [init, State.store]
  owned := fun r => rfl
  bornRef := by simp [init, State.store]
  creatingBorn := by simp [init, State.store]
  timersBorn := by simp [init, State.store]
  handBorn := by simp [init, State.store, Pc.uncalled, Pc.called]
  firedBorn := by simp [init, State.store]
  creatingFresh := by simp [init, State.store]
  timersFresh := by simp [init, State.store]
  poppedFresh := by simp [init, State.store, Pc.uncalled]
  once := by simp [init, State.store]

/-! ## The invariant of every run -/

/-- A shut-down scheduler stays so, and a call of `scheduler_shutdown` shuts it down. -/
theorem step_stopped {a : Label} {s s' : State} (h : step a s = some s') :
    (s.Stopped → s'.Stopped) ∧ (s'.shutdowns ≠ [] → s.shutdowns ≠ [] ∨ s'.Stopped) := by
  have keep : ∀ t : State, t.running = s.running → t.shutdowns = s.shutdowns →
      (s.pc ≠ .absent → t.pc ≠ .absent) →
      (s.Stopped → t.Stopped) ∧ (t.shutdowns ≠ [] → s.shutdowns ≠ [] ∨ t.Stopped) := by
    intro t hr hs hp
    refine ⟨fun ⟨h₁, h₂⟩ => ⟨hp h₁, hr.trans h₂⟩, fun h => .inl ?_⟩
    rwa [hs] at h
  cases step_turn h with
  | init absent => exact ⟨fun hs => absurd absent hs.1, fun hs => .inl hs⟩
  | shutdown _ started => exact ⟨fun hs => ⟨hs.1, rfl⟩, fun _ => .inr ⟨started, rfl⟩⟩
  | cleanup _ mem => exact ⟨id, fun _ => .inl (List.ne_nil_of_mem mem)⟩
  | refused | after | every | insert | ret | cancel | missed | connect => exact keep _ rfl rfl id
  | lock | exit | sleep | pop | call | cbReturn | cbCrash | rearm | release =>
    exact keep _ rfl rfl fun _ => nofun

/-- What holds after every run. -/
structure Inv (s : State) : Prop where
  stops : s.Stops
  good : s.store.Good

theorem inv_keeps : machine.Keeps (fun _ _ => True) Inv := by
  rintro s a s' ⟨hst, hg⟩ - h
  obtain ⟨h₁, h₂⟩ := step_stopped h
  refine ⟨fun hs => ?_, ?_⟩
  · rcases h₂ hs with hs | hs
    · exact h₁ (hst hs)
    · exact hs
  · rcases step_moves hst h with he | hm
    · exact he ▸ hg
    · exact hm.good hg

/-- The invariant holds after every run. -/
theorem Reach.inv {s : State} (hs : Reach s) : Inv s :=
  inv_keeps.reach (by rintro _ rfl; exact ⟨fun h => absurd rfl h, good_init⟩) hs

end Scheduler
end CoreCDTL
