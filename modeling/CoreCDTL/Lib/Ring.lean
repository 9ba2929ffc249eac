import Mathlib.Data.List.Range
import Mathlib.Data.Nat.ModEq
import Mathlib.Logic.Function.Basic

/-!
# A ring buffer and the queue that it represents

A ring buffer of `n` slots: `push` writes at `tail`, `pop` reads at `head`, both wrap around.

* `Ring.contents n r`: the elements in the ring, oldest first.
* `Ring.Inv`: `tail` is `count` slots after `head`, and the ring is not overfull.
* `contents_push`, `contents_pop`: on such a ring the operations are those of a queue.
-/

namespace CoreCDTL

/-- A ring buffer; a slot outside of the used part holds an old or initial value. -/
structure Ring (α : Type) where
  slots : Nat → α
  head : Nat
  tail : Nat
  count : Nat

namespace Ring

variable {α : Type} {n : Nat}

/-- The ring as it is initialized, with the initial value of the slots. -/
def empty (a : α) : Ring α := ⟨fun _ => a, 0, 0, 0⟩

/-- The oldest element. -/
def front (r : Ring α) : α := r.slots r.head

/-- Write at the tail. -/
def push (n : Nat) (a : α) (r : Ring α) : Ring α :=
  { r with slots := Function.update r.slots r.tail a
           tail := (r.tail + 1) % n
           count := r.count + 1 }

/-- Drop the oldest element. -/
def pop (n : Nat) (r : Ring α) : Ring α :=
  { r with head := (r.head + 1) % n, count := r.count - 1 }

/-- The elements in the ring, oldest first. -/
def contents (n : Nat) (r : Ring α) : List α :=
  (List.range r.count).map fun i => r.slots ((r.head + i) % n)

/-- The representation invariant. -/
structure Inv (n : Nat) (r : Ring α) : Prop where
  head : r.head < n
  tail : r.tail = (r.head + r.count) % n
  count : r.count ≤ n

theorem inv_empty (h : 0 < n) (a : α) : Inv n (empty a) :=
  ⟨h, (Nat.zero_mod n).symm, Nat.zero_le n⟩

theorem contents_nil {r : Ring α} (h : r.count = 0) : r.contents n = [] := by
  rw [contents, h]
  rfl

/-- Different offsets below `n` are different slots. -/
theorem slot_inj {h i j : Nat} (hi : i < n) (hj : j < n) (e : (h + i) % n = (h + j) % n) :
    i = j :=
  Nat.ModEq.eq_of_lt_of_lt (Nat.ModEq.add_left_cancel' h e) hi hj

theorem Inv.push {r : Ring α} (hr : Inv n r) (h : r.count < n) (a : α) : Inv n (r.push n a) where
  head := hr.head
  tail := by
    show (r.tail + 1) % n = (r.head + (r.count + 1)) % n
    rw [hr.tail, Nat.mod_add_mod, Nat.add_assoc]
  count := h

theorem Inv.pop {r : Ring α} (hr : Inv n r) (h : 0 < r.count) : Inv n (r.pop n) where
  head := Nat.mod_lt _ (Nat.zero_lt_of_lt hr.head)
  tail := by
    show r.tail = ((r.head + 1) % n + (r.count - 1)) % n
    rw [hr.tail, Nat.mod_add_mod, Nat.add_assoc, Nat.add_sub_cancel' h]
  count := Nat.le_trans (Nat.sub_le _ _) hr.count

/-- **`push` adds at the end of the queue.** -/
theorem contents_push {r : Ring α} (hr : Inv n r) (h : r.count < n) (a : α) :
    (r.push n a).contents n = r.contents n ++ [a] := by
  have old : ∀ i ∈ List.range r.count,
      Function.update r.slots r.tail a ((r.head + i) % n) = r.slots ((r.head + i) % n) := by
    intro i hi
    have hlt : i < r.count := List.mem_range.mp hi
    refine Function.update_of_ne (fun e => ?_) _ _
    rw [hr.tail] at e
    have := slot_inj (Nat.lt_trans hlt h) h e
    omega
  unfold contents push
  simp only [List.range_succ, List.map_append, List.map_cons, List.map_nil]
  rw [List.map_congr_left old, hr.tail, Function.update_self]

/-- **`pop` takes the oldest element off the queue.** -/
theorem contents_pop {r : Ring α} (hh : r.head < n) (h : 0 < r.count) :
    r.contents n = r.front :: (r.pop n).contents n := by
  obtain ⟨k, hk⟩ : ∃ k, r.count = k + 1 := ⟨r.count - 1, by omega⟩
  unfold contents pop front
  simp only [hk, Nat.add_sub_cancel, List.range_succ_eq_map, List.map_cons, List.map_map,
    Nat.add_zero, List.cons.injEq]
  constructor
  · rw [Nat.mod_eq_of_lt hh]
  · refine List.map_congr_left fun i _ => ?_
    show r.slots ((r.head + (i + 1)) % n) = r.slots (((r.head + 1) % n + i) % n)
    rw [Nat.mod_add_mod, Nat.add_assoc, Nat.add_comm 1 i]

end Ring

end CoreCDTL
