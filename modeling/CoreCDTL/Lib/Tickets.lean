import Mathlib.Data.List.Nodup
import Mathlib.Logic.Function.Basic

/-!
# Tickets

Threads draw numbers from a counter, keep them for a while, and put them into a list or drop them.

* `Tickets held used next`: the numbers that the threads hold and those in the list are below the
  counter and all different.
* `draw`, `drop`, `deposit`: the three steps keep this.
-/

namespace CoreCDTL

open Function (update)

/-- The numbers `held` by the threads and those in `used` are different numbers below `next`. -/
structure Tickets {ι : Type} (held : ι → Option Nat) (used : List Nat) (next : Nat) : Prop where
  heldLt : ∀ {t n}, held t = some n → n < next
  usedLt : ∀ n ∈ used, n < next
  inj : ∀ {t u n}, held t = some n → held u = some n → t = u
  new : ∀ {t n}, held t = some n → n ∉ used
  nodup : used.Nodup

namespace Tickets

variable {ι : Type} {held : ι → Option Nat} {used : List Nat} {next : Nat}

theorem empty (next : Nat) : Tickets (fun _ : ι => none) [] next where
  heldLt := fun h => nomatch h
  usedLt := fun _ h => nomatch h
  inj := fun h => nomatch h
  new := fun h => nomatch h
  nodup := List.nodup_nil

variable [DecidableEq ι]

/-- A number that is held after `t` has given up its own. -/
theorem held_of_drop {t u : ι} {n : Nat} (h : update held t none u = some n) :
    u ≠ t ∧ held u = some n := by
  by_cases hu : u = t
  · rw [hu, Function.update_self] at h; cases h
  · rw [Function.update_of_ne hu] at h; exact ⟨hu, h⟩

/-- A thread gives up its number. -/
theorem drop (h : Tickets held used next) (t : ι) : Tickets (update held t none) used next where
  heldLt := fun hu => h.heldLt (held_of_drop hu).2
  usedLt := h.usedLt
  inj := fun hu hv => h.inj (held_of_drop hu).2 (held_of_drop hv).2
  new := fun hu => h.new (held_of_drop hu).2
  nodup := h.nodup

/-- A thread draws the next number. -/
theorem draw (h : Tickets held used next) (t : ι) :
    Tickets (update held t (some next)) used (next + 1) := by
  have cases_ : ∀ {u n}, update held t (some next) u = some n →
      u = t ∧ n = next ∨ u ≠ t ∧ held u = some n := fun {u n} hu => by
    by_cases hut : u = t
    · rw [hut, Function.update_self, Option.some.injEq] at hu
      exact .inl ⟨hut, hu.symm⟩
    · rw [Function.update_of_ne hut] at hu
      exact .inr ⟨hut, hu⟩
  refine ⟨fun hu => ?_, fun n hn => Nat.lt_succ_of_lt (h.usedLt n hn), fun hu hv => ?_,
    fun hu hn => ?_, h.nodup⟩
  · rcases cases_ hu with ⟨-, rfl⟩ | ⟨-, hu⟩
    · exact Nat.lt_succ_self _
    · exact Nat.lt_succ_of_lt (h.heldLt hu)
  · rcases cases_ hu with ⟨eu, en⟩ | ⟨-, hu⟩
    · rcases cases_ hv with ⟨ev, -⟩ | ⟨-, hv⟩
      · rw [eu, ev]
      · exact absurd (en ▸ h.heldLt hv) (Nat.lt_irrefl _)
    · rcases cases_ hv with ⟨-, en⟩ | ⟨-, hv⟩
      · exact absurd (en ▸ h.heldLt hu) (Nat.lt_irrefl _)
      · exact h.inj hu hv
  · rcases cases_ hu with ⟨-, rfl⟩ | ⟨-, hu⟩
    · exact absurd (h.usedLt _ hn) (Nat.lt_irrefl _)
    · exact h.new hu hn

/-- A thread puts its number into the list. -/
theorem deposit (h : Tickets held used next) {t : ι} {n : Nat} (ht : held t = some n) :
    Tickets (update held t none) (used ++ [n]) next where
  heldLt := (h.drop t).heldLt
  usedLt := fun m hm => by
    rcases List.mem_append.mp hm with hm | hm
    · exact h.usedLt m hm
    · rw [List.mem_singleton.mp hm]; exact h.heldLt ht
  inj := (h.drop t).inj
  new := fun {u m} hu hm => by
    obtain ⟨hut, hu⟩ := held_of_drop hu
    rcases List.mem_append.mp hm with hm | hm
    · exact h.new hu hm
    · rw [List.mem_singleton.mp hm] at hu
      exact hut (h.inj hu ht)
  nodup := by
    refine List.nodup_append.mpr ⟨h.nodup, List.nodup_singleton n, fun a ha b hb e => ?_⟩
    rw [List.mem_singleton.mp hb] at e
    exact h.new ht (e ▸ ha)

end Tickets

end CoreCDTL
