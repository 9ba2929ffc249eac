import Mathlib.Data.List.GetD
import Mathlib.Data.Nat.Digits.Defs

/-!
# Bytes of a memory block

A block is a function from offsets to bytes. Typed accesses read and write little-endian numbers:

* `Mem.read m o n`, `Mem.write m o bs`: the `n` bytes at `o`, and the block with `bs` at `o`. A
  read sees the last write to its range (`read_write_self`) and nothing of a write to a disjoint
  range (`read_write_disjoint`).
* `leBytes w n`: the `w` little-endian bytes of `n`; `leNat` reads them back (`leNat_leBytes`).
* `Mem.readInt`, `Mem.writeInt`: a 32-bit signed number; `Mem.readPtr`, `Mem.writePtr`: a 64-bit
  address.
-/

namespace CoreCDTL

/-- A memory block. -/
abbrev Mem := Nat → UInt8

/-- The `w` little-endian bytes of `n`. -/
def leBytes : Nat → Nat → List UInt8
  | 0, _ => []
  | w + 1, n => UInt8.ofNat n :: leBytes w (n / 256)

/-- The number with the little-endian bytes `bs`. -/
def leNat (bs : List UInt8) : Nat := Nat.ofDigits 256 (bs.map UInt8.toNat)

@[simp] theorem leBytes_length (w n : Nat) : (leBytes w n).length = w := by
  induction w generalizing n with
  | zero => rfl
  | succ w ih => simp [leBytes, ih]

/-- Little-endian bytes read back, up to the width. -/
theorem leNat_leBytes (w n : Nat) : leNat (leBytes w n) = n % 256 ^ w := by
  induction w generalizing n with
  | zero => simp [leNat, leBytes, Nat.mod_one]
  | succ w ih =>
    have h := ih (n / 256)
    unfold leNat at h ⊢
    simp only [leBytes, List.map_cons, Nat.ofDigits_cons, h, UInt8.toNat_ofNat']
    rw [show 256 ^ (w + 1) = 256 * 256 ^ w from Nat.pow_succ', Nat.mod_mul]

/-- A number taken modulo an even width lies half of it around 0. -/
theorem bmod_range (n : Int) {w : Nat} {b : Int} (hw : (w : Int) = 2 * b) (hb : 0 < b) :
    -b ≤ n.bmod w ∧ n.bmod w < b := by
  have hpos : 0 < w := by omega
  have h₁ := @Int.le_bmod n w hpos
  have h₂ := @Int.bmod_lt n w hpos
  omega

namespace Mem

/-- The `n` bytes at offset `o`. -/
def read (m : Mem) (o n : Nat) : List UInt8 := (List.range n).map fun i => m (o + i)

/-- The block with `bs` at offset `o`. -/
def write (m : Mem) (o : Nat) (bs : List UInt8) : Mem :=
  fun i => if o ≤ i ∧ i < o + bs.length then bs.getD (i - o) 0 else m i

/-- The 32-bit signed number at `o`. -/
def readInt (m : Mem) (o : Nat) : Int := Int.bmod (leNat (m.read o 4)) (2 ^ 32)

def writeInt (m : Mem) (o : Nat) (n : Int) : Mem := m.write o (leBytes 4 (n % 2 ^ 32).toNat)

/-- The 64-bit address at `o`. -/
def readPtr (m : Mem) (o : Nat) : Nat := leNat (m.read o 8)

def writePtr (m : Mem) (o a : Nat) : Mem := m.write o (leBytes 8 a)

theorem read_write_self (m : Mem) (o : Nat) (bs : List UInt8) :
    (m.write o bs).read o bs.length = bs := by
  apply List.ext_getElem
  · simp [read]
  · intro i h₁ h₂
    simp only [read, List.getElem_map, List.getElem_range, write]
    rw [if_pos (by omega), Nat.add_sub_cancel_left, List.getD_eq_getElem _ _ h₂]

/-- A read at the start of the bytes that were copied from another block. -/
theorem read_write_copy (m v : Mem) (o : Nat) {n k : Nat} (h : k ≤ n) :
    (m.write o (v.read 0 n)).read o k = v.read 0 k := by
  apply List.map_congr_left
  intro i hi
  have := List.mem_range.mp hi
  have hlen : (v.read 0 n).length = n := by simp [read]
  have hi' : i < (v.read 0 n).length := by omega
  simp only [write]
  rw [if_pos (by omega), Nat.add_sub_cancel_left, List.getD_eq_getElem _ _ hi']
  simp [read]

theorem read_write_disjoint {m : Mem} {o o' n : Nat} {bs : List UInt8}
    (h : o' + n ≤ o ∨ o + bs.length ≤ o') : (m.write o bs).read o' n = m.read o' n := by
  apply List.map_congr_left
  intro i hi
  have := List.mem_range.mp hi
  simp only [write]
  rw [if_neg (by omega)]

theorem read_add (m : Mem) (o n k : Nat) : m.read o (n + k) = m.read o n ++ m.read (o + n) k := by
  simp [read, List.range_add, Nat.add_assoc]

/-- A write behind the first `o` bytes appends to them. -/
theorem read_write_append (m : Mem) (o : Nat) (bs : List UInt8) :
    (m.write o bs).read 0 (o + bs.length) = m.read 0 o ++ bs := by
  rw [read_add, Nat.zero_add, read_write_self, read_write_disjoint (.inl (by omega))]

/-- A read sees only the bytes of its range. -/
theorem read_congr {m m' : Mem} {o n : Nat} (h : ∀ i, o ≤ i → i < o + n → m i = m' i) :
    m.read o n = m'.read o n := by
  apply List.map_congr_left
  intro i hi
  have := List.mem_range.mp hi
  exact h _ (by omega) (by omega)

theorem readInt_writeInt (m : Mem) (o : Nat) {n : Int} (h₁ : -(2 ^ 31) ≤ n) (h₂ : n < 2 ^ 31) :
    (m.writeInt o n).readInt o = n := by
  unfold readInt writeInt
  have h := read_write_self m o (leBytes 4 (n % 2 ^ 32).toNat)
  rw [leBytes_length] at h
  rw [h, leNat_leBytes]
  have hm : (n % 2 ^ 32).toNat % 256 ^ 4 = (n % 2 ^ 32).toNat := Nat.mod_eq_of_lt (by omega)
  rw [hm, Int.toNat_of_nonneg (by omega)]
  have : (n % 2 ^ 32).bmod (2 ^ 32) = n.bmod (2 ^ 32) := Int.emod_bmod n (2 ^ 32)
  rw [this]
  exact Int.bmod_eq_of_le (by omega) (by omega)

theorem readPtr_writePtr (m : Mem) (o : Nat) {a : Nat} (h : a < 2 ^ 64) :
    (m.writePtr o a).readPtr o = a := by
  unfold readPtr writePtr
  have h' := read_write_self m o (leBytes 8 a)
  rw [leBytes_length] at h'
  rw [h', leNat_leBytes]
  exact Nat.mod_eq_of_lt (by omega)

/-- A number read from memory is an `int`. -/
theorem readInt_range (m : Mem) (o : Nat) : -(2 ^ 31) ≤ m.readInt o ∧ m.readInt o < 2 ^ 31 := by
  unfold readInt
  exact bmod_range _ (by decide) (by decide)

end Mem

end CoreCDTL
