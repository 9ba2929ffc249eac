import Mathlib.Data.List.Basic

/-!
# A table that grows by `realloc`

A table on the heap with two counters, the number of its entries and its capacity. `next` is the
capacity that a full table grows to.

* `push`: one more entry. A full table sets its capacity and its pointer before it looks whether
  `realloc` has returned a block.
* `Holds t xs`: the table has the entries `xs` and the room that its counters promise.
* `Holds.push_iff`: a push of an entry keeps the table exactly when it does not need the block that
  it does not get.
-/

namespace CoreCDTL

/-- The table: its block with the number of entries that it has room for and those written so far
(`none` for a NULL pointer), and the counters. -/
structure Growable (α : Type) where
  block : Option (Nat × List α)
  count : Nat
  capacity : Nat

namespace Growable

variable {α : Type}

/-- The number of entries that the block has room for. -/
def room (t : Growable α) : Nat := (t.block.map (·.1)).getD 0

def entries (t : Growable α) : List α := (t.block.map (·.2)).getD []

/-- `table[count++] = a`; outside of the block the write faults. -/
def put (a : α) (t : Growable α) : Option (Growable α) :=
  if t.count < t.room then
    some { t with block := some (t.room, t.entries ++ [a]), count := t.count + 1 }
  else none

/-- One more entry; `grow` says whether `realloc` returns a block. Without one the entry is
dropped. -/
def push (next : Nat → Nat) (grow : Bool) (a : α) (t : Growable α) : Option (Growable α) :=
  if t.capacity ≤ t.count then
    if grow then
      put a { t with block := some (next t.capacity, t.entries), capacity := next t.capacity }
    else some { t with block := none, capacity := next t.capacity }
  else put a t

/-- The push has to grow the table and cannot. -/
def Stuck (grow : Bool) (t : Growable α) : Prop := t.capacity ≤ t.count ∧ grow = false

instance (grow : Bool) (t : Growable α) : Decidable (t.Stuck grow) :=
  inferInstanceAs (Decidable (_ ∧ _))

/-- The table holds the entries `xs`, and its block has room for as many as its capacity says. -/
structure Holds (t : Growable α) (xs : List α) : Prop where
  entries : t.entries = xs
  count : t.count = xs.length
  used : t.count ≤ t.capacity
  room : t.capacity ≤ t.room

variable {t : Growable α} {xs : List α} {next : Nat → Nat}

theorem holds_empty : Holds (⟨none, 0, 0⟩ : Growable α) [] :=
  ⟨rfl, rfl, Nat.le_refl 0, Nat.le_refl 0⟩

theorem put_of_lt (h : t.count < t.room) (a : α) : put a t =
    some { t with block := some (t.room, t.entries ++ [a]), count := t.count + 1 } := if_pos h

theorem push_free (h : t.count < t.capacity) (grow : Bool) (a : α) :
    push next grow a t = put a t := if_neg (Nat.not_le.mpr h)

theorem push_grown (h : t.capacity ≤ t.count) (a : α) : push next true a t =
    put a { t with block := some (next t.capacity, t.entries), capacity := next t.capacity } :=
  (if_pos h).trans (if_pos rfl)

theorem push_failed (h : t.capacity ≤ t.count) (a : α) : push next false a t =
    some { t with block := none, capacity := next t.capacity } :=
  (if_pos h).trans (if_neg Bool.false_ne_true)

theorem Holds.put (h : t.Holds xs) (hfree : t.count < t.capacity) (a : α) :
    ∃ t', put a t = some t' ∧ t'.Holds (xs ++ [a]) := by
  refine ⟨_, put_of_lt (Nat.lt_of_lt_of_le hfree h.room) a, ?_, ?_, hfree, h.room⟩
  · show t.entries ++ [a] = xs ++ [a]
    rw [h.entries]
  · show t.count + 1 = (xs ++ [a]).length
    rw [h.count, List.length_append, List.length_singleton]

theorem Holds.push (hnext : ∀ c, c < next c) (h : t.Holds xs) {grow : Bool}
    (hgo : ¬ t.Stuck grow) (a : α) :
    ∃ t', push next grow a t = some t' ∧ t'.Holds (xs ++ [a]) := by
  rcases Nat.lt_or_ge t.count t.capacity with hfree | hfull
  · rw [push_free hfree]
    exact h.put hfree a
  · cases grow with
    | false => exact absurd ⟨hfull, rfl⟩ hgo
    | true =>
      have hlt : t.count < next t.capacity := Nat.lt_of_le_of_lt h.used (hnext _)
      have hgrown : Holds { t with
          block := some (next t.capacity, t.entries), capacity := next t.capacity } xs :=
        ⟨h.entries, h.count, Nat.le_of_lt hlt, Nat.le_refl _⟩
      rw [push_grown hfull]
      exact hgrown.put hlt a

/-- A push that is stuck goes through and leaves a NULL table that promises room. -/
theorem push_stuck (hnext : ∀ c, c < next c) {grow : Bool} (hstuck : t.Stuck grow) (a : α) :
    ∃ t', push next grow a t = some t' ∧ ∀ ys, ¬ t'.Holds ys := by
  obtain ⟨hfull, rfl⟩ := hstuck
  refine ⟨_, push_failed hfull a, fun ys h => ?_⟩
  have hroom : next t.capacity ≤ 0 := h.room
  have := hnext t.capacity
  omega

/-- **A push keeps the table** with the new entry, or without it if there is no block for it,
exactly when it is not stuck. -/
theorem Holds.push_iff (hnext : ∀ c, c < next c) (h : t.Holds xs) (grow : Bool) (a : α) :
    (∃ t', Growable.push next grow a t = some t' ∧
        t'.Holds (if t.Stuck grow then xs else xs ++ [a])) ↔ ¬ t.Stuck grow := by
  by_cases hstuck : t.Stuck grow
  · rw [if_pos hstuck]
    obtain ⟨t', ht', hno⟩ := push_stuck hnext hstuck a
    refine iff_of_false ?_ (not_not.mpr hstuck)
    rintro ⟨u, hu, hholds⟩
    cases ht'.symm.trans hu
    exact hno xs hholds
  · rw [if_neg hstuck]
    exact iff_of_true (h.push hnext hstuck a) hstuck

end Growable

end CoreCDTL
