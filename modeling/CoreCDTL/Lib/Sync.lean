import Mathlib.Algebra.BigOperators.Group.Finset.Basic
import Mathlib.Data.List.Basic

/-!
# Mutexes and condition variables

* `Mutex`: free, held by a thread, or destroyed. As in glibc, locking or unlocking a destroyed mutex
  returns at once and has no effect, and destroying a held mutex has no effect.
* `signal`: a condition variable is the list of the threads that sleep on it; a signal wakes one of
  them, the choice is the scheduler's.
* `Mutex.Use`: what a step does to a mutex and to the set of threads whose code is in the critical
  section. A thread that leaves its critical section without an unlock abandons the mutex.
* Every use keeps the critical section exclusive (`Use.exclusive`); a thread that does not abandon
  the mutex is in the critical section while it holds the mutex (`Use.owned`).
* `sum_update`: how a sum over the threads changes when one of them moves.
-/

namespace CoreCDTL

/-- The state of a mutex. -/
inductive Mutex (τ : Type) where
  | free
  | held (t : τ)
  | destroyed
  deriving DecidableEq, Repr

namespace Mutex

variable {τ : Type}

/-- `pthread_mutex_lock`: `none` while another thread holds the mutex. -/
def lock (t : τ) : Mutex τ → Option (Mutex τ)
  | free => some (held t)
  | held _ => none
  | destroyed => some destroyed

/-- `pthread_mutex_unlock`. -/
def unlock : Mutex τ → Mutex τ
  | destroyed => destroyed
  | _ => free

/-- `pthread_mutex_destroy`. -/
def destroy : Mutex τ → Mutex τ
  | held t => held t
  | _ => destroyed

/-- A step that takes the mutex from `m` to `m'` and the threads in the critical section from `H` to
`H'`; the threads in `A` may abandon the mutex. -/
inductive Use (A : τ → Prop) (m : Mutex τ) (H : τ → Prop) (m' : Mutex τ) (H' : τ → Prop) :
    Prop where
  | keep (mutex : m' = m) (inside : ∀ u, H' u ↔ H u)
  | acquire (t : τ) (mutex : m.lock t = some m') (inside : ∀ u, H' u ↔ H u ∨ u = t)
  | release (t : τ) (holds : H t) (mutex : m' = m.unlock) (inside : ∀ u, H' u ↔ H u ∧ u ≠ t)
  | abandon (t : τ) (may : A t) (mutex : m' = m) (inside : ∀ u, H' u ↔ H u ∧ u ≠ t)
  | destroy (mutex : m' = m.destroy) (inside : ∀ u, H' u ↔ H u)

section Local

variable {A : τ → Prop} {m m' : Mutex τ} {H H' : τ → Prop} {t : τ}

/-- Uses by the step of one thread `t`: the other threads stay where they are. -/
theorem Use.keep_at (mutex : m' = m) (other : ∀ u, u ≠ t → (H' u ↔ H u)) (self : H' t ↔ H t) :
    Use A m H m' H' := by
  refine .keep mutex fun u => ?_
  by_cases hu : u = t
  · rw [hu]; exact self
  · exact other u hu

theorem Use.acquire_at (mutex : m.lock t = some m') (other : ∀ u, u ≠ t → (H' u ↔ H u))
    (self : H' t) : Use A m H m' H' := by
  refine .acquire t mutex fun u => ?_
  by_cases hu : u = t
  · rw [hu]; exact iff_of_true self (.inr rfl)
  · rw [other u hu]; exact (or_iff_left hu).symm

theorem Use.release_at (holds : H t) (mutex : m' = m.unlock) (other : ∀ u, u ≠ t → (H' u ↔ H u))
    (self : ¬ H' t) : Use A m H m' H' := by
  refine .release t holds mutex fun u => ?_
  by_cases hu : u = t
  · rw [hu]; exact iff_of_false self fun h => h.2 rfl
  · rw [other u hu]; exact (and_iff_left hu).symm

theorem Use.abandon_at (may : A t) (mutex : m' = m) (other : ∀ u, u ≠ t → (H' u ↔ H u))
    (self : ¬ H' t) : Use A m H m' H' := by
  refine .abandon t may mutex fun u => ?_
  by_cases hu : u = t
  · rw [hu]; exact iff_of_false self fun h => h.2 rfl
  · rw [other u hu]; exact (and_iff_left hu).symm

end Local

/-- A thread in the critical section holds the mutex, unless it is destroyed. -/
def Exclusive (m : Mutex τ) (H : τ → Prop) : Prop := ∀ t, H t → m = held t ∨ m = destroyed

theorem lock_free_or {m m' : Mutex τ} {t : τ} (h : m.lock t = some m') :
    (m = free ∧ m' = held t) ∨ (m = destroyed ∧ m' = destroyed) := by
  cases m with
  | free => exact .inl ⟨rfl, (Option.some.inj h).symm⟩
  | held u => cases h
  | destroyed => exact .inr ⟨rfl, (Option.some.inj h).symm⟩

theorem destroyed_of_lock {m m' : Mutex τ} {t : τ} (h : m.lock t = some m')
    (hd : m' = .destroyed) : m = .destroyed := by
  rcases lock_free_or h with ⟨-, h'⟩ | ⟨h', -⟩
  · rw [h'] at hd; cases hd
  · exact h'

theorem destroyed_of_unlock {m : Mutex τ} (hd : m.unlock = .destroyed) : m = .destroyed := by
  cases m with
  | free => cases hd
  | held t => cases hd
  | destroyed => rfl

/-- A mutex that nobody holds can be locked. -/
theorem lock_some {m : Mutex τ} (t : τ) (h : ∀ u, m ≠ held u) : ∃ m', m.lock t = some m' := by
  cases m with
  | free => exact ⟨_, rfl⟩
  | held u => exact absurd rfl (h u)
  | destroyed => exact ⟨_, rfl⟩

variable {A : τ → Prop} {m m' : Mutex τ} {H H' : τ → Prop}

/-- **Mutual exclusion is kept.** -/
theorem Use.exclusive (h : Use A m H m' H') (he : Exclusive m H) : Exclusive m' H' := by
  intro u hu
  cases h with
  | keep mutex inside => rw [mutex]; exact he u ((inside u).mp hu)
  | acquire t mutex inside =>
    rcases lock_free_or mutex with ⟨hm, hm'⟩ | ⟨-, hm'⟩
    · rcases (inside u).mp hu with hu | rfl
      · -- Nobody is inside while the mutex is free.
        rcases he u hu with h | h <;> rw [hm] at h <;> cases h
      · exact .inl hm'
    · exact .inr hm'
  | release t holds mutex inside =>
    obtain ⟨hu, hne⟩ := (inside u).mp hu
    rcases he t holds with ht | ht
    · rcases he u hu with h | h
      · rw [ht, held.injEq] at h
        exact absurd h.symm hne
      · rw [ht] at h; cases h
    · right; rw [mutex, ht]; rfl
  | abandon t may mutex inside => rw [mutex]; exact he u ((inside u).mp hu).1
  | destroy mutex inside =>
    rcases he u ((inside u).mp hu) with h | h
    · left; rw [mutex, h]; rfl
    · right; rw [mutex, h]; rfl

/-- **The owner is inside**, if it does not abandon the mutex. -/
theorem Use.owned (h : Use A m H m' H') {u : τ} (ho : m = held u → H u) (hu : ¬ A u)
    (hm' : m' = held u) : H' u := by
  cases h with
  | keep mutex inside => exact (inside u).mpr (ho (mutex ▸ hm'))
  | acquire t mutex inside =>
    rcases lock_free_or mutex with ⟨-, ht⟩ | ⟨-, ht⟩
    · rw [ht, held.injEq] at hm'
      exact (inside u).mpr (.inr hm'.symm)
    · rw [ht] at hm'; cases hm'
  | release t holds mutex inside =>
    rw [mutex] at hm'
    cases m <;> cases hm'
  | abandon t may mutex inside =>
    exact (inside u).mpr ⟨ho (mutex ▸ hm'), fun e => hu (e ▸ may)⟩
  | destroy mutex inside =>
    refine (inside u).mpr (ho ?_)
    rw [mutex] at hm'
    cases m with
    | held t => exact hm'
    | free => cases hm'
    | destroyed => cases hm'

end Mutex

/-- `pthread_cond_signal` on the condition variable with the sleeping threads `l`: which one it
wakes, if any sleeps, and those that still sleep. -/
def signal {τ : Type} [DecidableEq τ] (l : List τ) (i : Nat) : Option (Option τ × List τ) :=
  if l.isEmpty then some (none, []) else l[i]?.map fun t => (some t, l.erase t)

/-- A signal wakes a sleeping thread if there is one. -/
theorem signal_cases {τ : Type} [DecidableEq τ] {l l' : List τ} {i : Nat} {t : Option τ}
    (h : signal l i = some (t, l')) :
    (l = [] ∧ t = none ∧ l' = []) ∨ ∃ u ∈ l, t = some u ∧ l' = l.erase u := by
  unfold signal at h
  split at h
  · rename_i he
    cases h
    exact .inl ⟨List.isEmpty_iff.mp he, rfl, rfl⟩
  · obtain ⟨u, hu, he⟩ := Option.map_eq_some_iff.mp h
    cases he
    exact .inr ⟨u, List.mem_of_getElem? hu, rfl, rfl⟩

theorem signal_zero {τ : Type} [DecidableEq τ] (l : List τ) : ∃ p, signal l 0 = some p := by
  cases l with
  | nil => exact ⟨_, rfl⟩
  | cons t l => exact ⟨_, rfl⟩

/-- A sum over the threads when the thread `i` moves to `b`. -/
theorem sum_update {ι β : Type} [Fintype ι] [DecidableEq ι] (g : β → Nat) (f : ι → β) (i : ι)
    (b : β) : (∑ j, g (Function.update f i b j)) + g (f i) = (∑ j, g (f j)) + g b := by
  have rest : ∑ j ∈ Finset.univ.erase i, g (Function.update f i b j) =
      ∑ j ∈ Finset.univ.erase i, g (f j) :=
    Finset.sum_congr rfl fun j hj => by rw [Function.update_of_ne (Finset.ne_of_mem_erase hj)]
  rw [← Finset.add_sum_erase _ (fun j => g (f j)) (Finset.mem_univ i),
    ← Finset.add_sum_erase _ (fun j => g (Function.update f i b j)) (Finset.mem_univ i), rest,
    Function.update_self]
  omega

end CoreCDTL
