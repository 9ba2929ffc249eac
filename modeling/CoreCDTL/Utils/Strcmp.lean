import CoreCDTL.Lib.Loop
import Mathlib.Data.Fin.Basic
import Mathlib.Data.List.FinRange
import Mathlib.Data.List.GetD

/-!
# `utils/utils_string.c`: comparing strings with vector instructions

`optimized_strcmp` calls `strcmp` if one of the strings is shorter than 16 characters, and else the
loop of the build: NEON, SVE or RISC-V vectors. (An AVX2 build would call `simd_strcmp_x86`, which is
not defined anywhere.)

* `StrPtr`: a string in readable memory, with the bytes behind its terminator.
* The intrinsics, lane by lane: `vld1qU8` and the others of NEON, `svwhileltB8` and the others of
  SVE, `Vsetvl` and `vfirst` of RISC-V. `simdStrcmpArm`, `simdStrcmpArmSve` and `simdStrcmpRiscv` are
  the rounds of the three loops.
* `neon_strcmp_iff`, `sve_strcmp_iff`, `riscv_strcmp_iff`: when a loop finds out whether the strings
  are equal.
-/

namespace CoreCDTL
namespace Utils

open Loop (Returns)

/-! ## Strings in memory -/

/-- A NUL-terminated string of `len` characters; `byte k` is the byte `k` behind its address. -/
structure StrPtr where
  byte : Nat → UInt8
  len : Nat
  nonzero : ∀ k, k < len → byte k ≠ 0
  terminated : byte len = 0

namespace StrPtr

variable {a b : StrPtr}

/-- The characters. -/
def text (s : StrPtr) : List UInt8 := (List.range s.len).map s.byte

theorem len_le {k : Nat} (h : a.byte k = 0) : a.len ≤ k :=
  Nat.not_lt.mp fun hk => a.nonzero k hk h

theorem text_eq_iff : a.text = b.text ↔ a.len = b.len ∧ ∀ k, k < a.len → a.byte k = b.byte k := by
  unfold text
  constructor
  · intro h
    have hlen : a.len = b.len := by simpa using congrArg List.length h
    refine ⟨hlen, fun k hk => ?_⟩
    have hget := congrArg (·[k]?) h
    simpa [hk, hlen ▸ hk] using hget
  · rintro ⟨hlen, h⟩
    rw [← hlen]
    exact List.map_congr_left fun k hk => h k (List.mem_range.mp hk)

/-- Memory that is the same up to the terminator of `a` holds the same string. -/
theorem text_eq_of_bytes {n : Nat} (hn : a.len < n) (h : ∀ k, k < n → a.byte k = b.byte k) :
    a.text = b.text := by
  have hle : b.len ≤ a.len := len_le (by rw [← h a.len hn]; exact a.terminated)
  have hge : a.len ≤ b.len := len_le (by rw [h b.len (by omega)]; exact b.terminated)
  exact text_eq_iff.mpr ⟨Nat.le_antisymm hge hle, fun k hk => h k (by omega)⟩

/-- A string in memory, followed by `rest` and zeros. -/
def ofText (text rest : List UInt8) (h : ∀ c ∈ text, c ≠ 0) : StrPtr where
  byte := fun k => (text ++ 0 :: rest).getD k 0
  len := text.length
  nonzero := fun k hk => by
    rw [List.getD_append _ _ _ _ hk, List.getD_eq_getElem _ _ hk]
    exact h _ (List.getElem_mem hk)
  terminated := by simp

theorem replicate_ne_zero {c : UInt8} (hc : c ≠ 0) (n : Nat) : ∀ d ∈ List.replicate n c, d ≠ 0 := by
  intro d hd
  rw [List.eq_of_mem_replicate hd]
  exact hc

theorem ofText_zero {text : List UInt8} (h : ∀ c ∈ text, c ≠ 0) {k : Nat} (hk : text.length ≤ k) :
    (ofText text [] h).byte k = 0 := by
  show (text ++ [0]).getD k 0 = 0
  rw [List.getD_append_right _ _ _ _ hk]
  cases k - text.length with
  | zero => rfl
  | succ n => rfl

/-- The string from the character `k` on. -/
def drop (s : StrPtr) (k : Nat) (h : k ≤ s.len) : StrPtr where
  byte := fun i => s.byte (k + i)
  len := s.len - k
  nonzero := fun i hi => s.nonzero (k + i) (by omega)
  terminated := by rw [Nat.add_sub_cancel' h]; exact s.terminated

end StrPtr

/-- `strcmp` on the characters. -/
def strcmpText : List UInt8 → List UInt8 → Int
  | [], [] => 0
  | [], d :: _ => -(d.toNat : Int)
  | c :: _, [] => c.toNat
  | c :: s, d :: t => if c = d then strcmpText s t else c.toNat - d.toNat

def strcmp (a b : StrPtr) : Int := strcmpText a.text b.text

theorem strcmpText_eq_zero {s t : List UInt8} (hs : ∀ c ∈ s, c ≠ 0) (ht : ∀ c ∈ t, c ≠ 0) :
    strcmpText s t = 0 ↔ s = t := by
  have pos : ∀ c : UInt8, c ≠ 0 → (c.toNat : Int) ≠ 0 := by
    intro c hc h
    exact hc (UInt8.toNat_inj.mp (Int.ofNat_eq_zero.mp h))
  induction s generalizing t with
  | nil =>
    cases t with
    | nil => exact iff_of_true rfl rfl
    | cons d t =>
      have hd := pos d (ht d List.mem_cons_self)
      exact iff_of_false (fun h => hd (Int.neg_eq_zero.mp h)) (List.cons_ne_nil d t).symm
  | cons c s ih =>
    cases t with
    | nil => exact iff_of_false (pos c (hs c List.mem_cons_self)) (List.cons_ne_nil c s)
    | cons d t =>
      unfold strcmpText
      by_cases hcd : c = d
      · have htail : strcmpText s t = 0 ↔ s = t :=
          ih (fun x hx => hs x (List.mem_cons_of_mem c hx)) fun x hx =>
            ht x (List.mem_cons_of_mem d hx)
        rw [if_pos hcd, htail, hcd, List.cons.injEq]
        exact (and_iff_right rfl).symm
      · have hne : c.toNat ≠ d.toNat := fun h => hcd (UInt8.toNat_inj.mp h)
        rw [if_neg hcd]
        exact iff_of_false (by omega) fun h => hcd (List.cons.inj h).1

theorem strcmp_eq_zero (a b : StrPtr) : strcmp a b = 0 ↔ a.text = b.text := by
  have nonzero : ∀ s : StrPtr, ∀ c ∈ s.text, c ≠ 0 := by
    intro s c hc
    obtain ⟨k, hk, rfl⟩ := List.mem_map.mp hc
    exact s.nonzero k (List.mem_range.mp hk)
  exact strcmpText_eq_zero (nonzero a) (nonzero b)

/-! ## The intrinsics -/

/-- A vector of `n` bytes. -/
abbrev Lanes (n : Nat) := Fin n → UInt8

/-- A predicate or a mask of `n` lanes. -/
abbrev Pred (n : Nat) := Fin n → Bool

section Neon

/-- `vld1q_u8` at the offset `k`. -/
def vld1qU8 (p : Nat → UInt8) (k : Nat) : Lanes 16 := fun i => p (k + i)

def vdupqNU8 (c : UInt8) : Lanes 16 := fun _ => c

def vceqqU8 (x y : Lanes 16) : Lanes 16 := fun i => if x i = y i then 0xFF else 0

/-- The least lane. -/
def vminvqU8 (x : Lanes 16) : UInt8 := (List.ofFn x).foldl min 0xFF

/-- The greatest lane. -/
def vmaxvqU8 (x : Lanes 16) : UInt8 := (List.ofFn x).foldl max 0

end Neon

section Sve

variable {n : Nat}

/-- `svwhilelt_b8(i, m)`: the lanes `k` with `i + k < m`. -/
def svwhileltB8 (n i m : Nat) : Pred n := fun k => i + k < m

def svdupNU8 (n : Nat) (c : UInt8) : Lanes n := fun _ => c

/-- `svld1_u8` at the offset `i`; the inactive lanes are 0. -/
def svld1U8 (pg : Pred n) (p : Nat → UInt8) (i : Nat) : Lanes n :=
  fun k => if pg k then p (i + k) else 0

def svcmpeqU8 (pg : Pred n) (x y : Lanes n) : Pred n := fun k => pg k && x k == y k

/-- `svptest_last`: the last active lane of `pg`, false without one. -/
def svptestLast (pg q : Pred n) : Bool :=
  (List.finRange n).foldl (fun r k => if pg k then q k else r) false

def svptestAny (pg q : Pred n) : Bool := (List.finRange n).any fun k => pg k && q k

end Sve

/-- `vsetvl`: at most the requested length, and 0 only for 0. -/
structure Vsetvl where
  vl : Nat → Nat
  le : ∀ n, vl n ≤ n
  pos : ∀ n, vl n = 0 → n = 0

/-- `vfirst`: the first lane that is set, -1 without one. -/
def vfirst {vl : Nat} (mask : Pred vl) : Int :=
  match (List.finRange vl).find? (mask ·) with
  | some k => k
  | none => -1

/-! ## The loops -/

/-- A round of `simd_strcmp_arm`; `k` is the distance that the pointers have moved. -/
def simdStrcmpArm (a b : Nat → UInt8) (k : Nat) : Round Nat Int :=
  let aVal := vld1qU8 a k
  let bVal := vld1qU8 b k
  let allEqual := vminvqU8 (vceqqU8 aVal bVal)
  if allEqual ≠ 0xFF then .done 1
  else
    let hasNull := vmaxvqU8 (vceqqU8 aVal (vdupqNU8 0))
    if hasNull = 0xFF then .done 0 else .next (k + 16)

/-- A round of `simd_strcmp_arm_sve` on vectors of `n` bytes. -/
def simdStrcmpArmSve (n : Nat) (a b : Nat → UInt8) (i : Nat) : Round Nat Int :=
  let pg := svwhileltB8 n i n
  let aVal := svld1U8 pg a i
  let bVal := svld1U8 pg b i
  if svptestLast pg (svcmpeqU8 pg aVal bVal) = false then .done 1
  else if svptestAny pg (svcmpeqU8 pg aVal (svdupNU8 n 0)) then .done 0
  else .next (i + n)

/-- A round of `simd_strcmp_riscv`. `a_ptr` stays in its string, `b_ptr` may leave it. -/
def simdStrcmpRiscv (v : Vsetvl) (p : StrPtr × (Nat → UInt8)) :
    Round (StrPtr × (Nat → UInt8)) Int :=
  let vl := v.vl p.1.len
  let cmp : Pred vl := fun i => p.1.byte i == p.2 i
  let allEqual : Bool := vfirst cmp = -1
  if allEqual = false then .done 1
  else
    let nullCmp : Pred vl := fun i => p.1.byte i == 0
    if vfirst nullCmp ≠ -1 then .done 0
    else .next (p.1.drop vl (v.le _), fun k => p.2 (vl + k))

/-- The instruction set that the program is built for. -/
inductive Build where
  | sve (n : Nat)
  | neon
  | riscv (v : Vsetvl)
  | plain

/-- `optimized_strcmp`, with at most `fuel` rounds of its loop. -/
def optimizedStrcmp (build : Build) (fuel : Nat) (a b : StrPtr) : Option Int :=
  if a.len < 16 ∨ b.len < 16 then some (strcmp a b)
  else
    match build with
    | .sve n => Loop.iterate (simdStrcmpArmSve n a.byte b.byte) fuel 0
    | .neon => Loop.iterate (simdStrcmpArm a.byte b.byte) fuel 0
    | .riscv v => Loop.iterate (simdStrcmpRiscv v) fuel (a, b.byte)
    | .plain => some (strcmp a b)

/-! ## NEON -/

theorem min_eq_ff {c d : UInt8} : min c d = 0xFF ↔ c = 0xFF ∧ d = 0xFF := by
  have hmin : min c d = if c ≤ d then c else d := rfl
  have hc := c.toNat_lt
  have hd := d.toNat_lt
  rw [hmin, ← UInt8.toNat_inj, ← UInt8.toNat_inj, ← UInt8.toNat_inj]
  split <;> rename_i hle <;> rw [UInt8.le_iff_toNat_le] at hle <;>
    simp only [UInt8.reduceToNat] <;> omega

theorem max_eq_ff {c d : UInt8} : max c d = 0xFF ↔ c = 0xFF ∨ d = 0xFF := by
  have hmax : max c d = if c ≤ d then d else c := rfl
  have hc := c.toNat_lt
  have hd := d.toNat_lt
  rw [hmax, ← UInt8.toNat_inj, ← UInt8.toNat_inj, ← UInt8.toNat_inj]
  split <;> rename_i hle <;> rw [UInt8.le_iff_toNat_le] at hle <;>
    simp only [UInt8.reduceToNat] <;> omega

theorem foldl_min_eq_ff {l : List UInt8} {c : UInt8} :
    l.foldl min c = 0xFF ↔ c = 0xFF ∧ ∀ d ∈ l, d = 0xFF := by
  induction l generalizing c with
  | nil => simp
  | cons d l ih => rw [List.foldl_cons, ih, min_eq_ff, List.forall_mem_cons, and_assoc]

theorem foldl_max_eq_ff {l : List UInt8} {c : UInt8} :
    l.foldl max c = 0xFF ↔ c = 0xFF ∨ ∃ d ∈ l, d = 0xFF := by
  induction l generalizing c with
  | nil => simp
  | cons d l ih => rw [List.foldl_cons, ih, max_eq_ff, List.exists_mem_cons_iff, or_assoc]

theorem vceqqU8_eq_ff {x y : Lanes 16} {i : Fin 16} : vceqqU8 x y i = 0xFF ↔ x i = y i := by
  unfold vceqqU8
  split
  · rename_i h
    exact iff_of_true rfl h
  · rename_i h
    exact iff_of_false (by decide) h

/-- All lanes are equal. -/
theorem vminvqU8_vceqqU8 {x y : Lanes 16} : vminvqU8 (vceqqU8 x y) = 0xFF ↔ ∀ i, x i = y i := by
  unfold vminvqU8
  rw [foldl_min_eq_ff, and_iff_right rfl, List.forall_mem_ofFn_iff]
  exact forall_congr' fun i => vceqqU8_eq_ff

/-- A lane is equal. -/
theorem vmaxvqU8_vceqqU8 {x y : Lanes 16} : vmaxvqU8 (vceqqU8 x y) = 0xFF ↔ ∃ i, x i = y i := by
  unfold vmaxvqU8
  rw [foldl_max_eq_ff, or_iff_right (by decide)]
  simp only [List.mem_ofFn, exists_exists_eq_and, vceqqU8_eq_ff]

variable {a b : StrPtr}

/-- The number of bytes that the loop compares: whole blocks up to the terminator of `a`. -/
def StrPtr.blocks (a : StrPtr) : Nat := (a.len / 16 + 1) * 16

/-- The bytes from the terminators to the end of the last block are the same. -/
def SameTail (a b : StrPtr) : Prop := ∀ k, a.len < k → k < a.blocks → a.byte k = b.byte k

/-- The loop compares whole blocks. -/
theorem simdStrcmpArm_returns (a b : StrPtr) :
    ∃ r, Returns (simdStrcmpArm a.byte b.byte) 0 r ∧
      (r = 0 ↔ ∀ k, k < a.blocks → a.byte k = b.byte k) := by
  refine Loop.returns_of_variant (I := fun k =>
    16 ∣ k ∧ k ≤ a.len ∧ ∀ j, j < k → a.byte j = b.byte j) (fun k => a.len - k) ?_
    ⟨⟨0, rfl⟩, Nat.zero_le _, fun j hj => absurd hj (Nat.not_lt_zero j)⟩
  rintro k ⟨⟨m, rfl⟩, hle, hsame⟩
  have hblocks : 16 * m + 16 ≤ a.blocks := by unfold StrPtr.blocks; omega
  have hround : simdStrcmpArm a.byte b.byte (16 * m) =
      if ∀ i : Fin 16, a.byte (16 * m + i) = b.byte (16 * m + i) then
        if ∃ i : Fin 16, a.byte (16 * m + i) = 0 then .done 0 else .next (16 * m + 16)
      else .done 1 := by
    unfold simdStrcmpArm
    simp only [ne_eq, vminvqU8_vceqqU8, vmaxvqU8_vceqqU8, ite_not]
    rfl
  rw [hround]
  by_cases heq : ∀ i : Fin 16, a.byte (16 * m + i) = b.byte (16 * m + i)
  · rw [if_pos heq]
    have hsame' : ∀ j, j < 16 * m + 16 → a.byte j = b.byte j := by
      intro j hj
      by_cases hlt : j < 16 * m
      · exact hsame j hlt
      · have := heq ⟨j - 16 * m, by omega⟩
        rwa [Nat.add_sub_cancel' (Nat.not_lt.mp hlt)] at this
    by_cases hnull : ∃ i : Fin 16, a.byte (16 * m + i) = 0
    · -- The terminator of `a` is in the block, which is the last one.
      rw [if_pos hnull]
      obtain ⟨i, hi⟩ := hnull
      have hlen := StrPtr.len_le hi
      have hlast : a.blocks = 16 * m + 16 := by unfold StrPtr.blocks; omega
      exact .inl ⟨0, rfl, iff_of_true rfl (hlast ▸ hsame')⟩
    · rw [if_neg hnull]
      have hlen : 16 * m + 16 ≤ a.len := by
        by_contra hlt
        exact hnull ⟨⟨a.len - 16 * m, by omega⟩, by
          rw [Nat.add_sub_cancel' hle]; exact a.terminated⟩
      exact .inr ⟨_, rfl, ⟨⟨m + 1, by omega⟩, hlen, hsame'⟩, by omega⟩
  · rw [if_neg heq]
    refine .inl ⟨1, rfl, iff_of_false (by decide) fun hall => heq fun i => hall _ ?_⟩
    omega

/-- The blocks are the same if the strings are, and what lies behind them. -/
theorem blocks_eq_iff : (∀ k, k < a.blocks → a.byte k = b.byte k) ↔
    a.text = b.text ∧ SameTail a b := by
  have hlen : a.len < a.blocks := by unfold StrPtr.blocks; omega
  constructor
  · exact fun h => ⟨StrPtr.text_eq_of_bytes hlen h, fun k _ hk => h k hk⟩
  · rintro ⟨htext, htail⟩ k hk
    obtain ⟨hlen', hbyte⟩ := StrPtr.text_eq_iff.mp htext
    rcases Nat.lt_trichotomy k a.len with h | h | h
    · exact hbyte k h
    · rw [h, a.terminated, hlen', b.terminated]
    · exact htail k h hk

/-- **NEON.** The loop returns 0 exactly on equal strings, and `optimized_strcmp` does, if and only
if equal strings have equal bytes behind their terminators in the last block. -/
theorem neon_strcmp_iff (a b : StrPtr) :
    (∃ r, Returns (simdStrcmpArm a.byte b.byte) 0 r ∧
      ((r = 0 ↔ strcmp a b = 0) ↔ (a.text = b.text → SameTail a b))) ∧
    ∃ r, (∃ fuel, optimizedStrcmp .neon fuel a b = some r) ∧
      ((r = 0 ↔ a.text = b.text) ↔
        (16 ≤ a.len → 16 ≤ b.len → a.text = b.text → SameTail a b)) := by
  obtain ⟨r, hr, hzero⟩ := simdStrcmpArm_returns a b
  rw [blocks_eq_iff] at hzero
  have hexact : (r = 0 ↔ a.text = b.text) ↔ (a.text = b.text → SameTail a b) := by
    rw [hzero, and_iff_left_iff_imp]
  refine ⟨⟨r, hr, by rw [strcmp_eq_zero]; exact hexact⟩, ?_⟩
  unfold optimizedStrcmp
  by_cases hshort : a.len < 16 ∨ b.len < 16
  · simp only [if_pos hshort]
    refine ⟨strcmp a b, ⟨0, rfl⟩, iff_of_true (strcmp_eq_zero a b) fun ha hb => ?_⟩
    omega
  · simp only [if_neg hshort]
    refine ⟨r, hr, hexact.trans ⟨fun h _ _ => h, fun h => h (by omega) (by omega)⟩⟩

/-- A string of 16 characters, with a byte behind its terminator. -/
def sixteen (c : UInt8) : StrPtr :=
  .ofText (List.replicate 16 65) [c] (StrPtr.replicate_ne_zero (by decide) 16)

/-- **Equal strings that are reported different.** The bytes behind the terminators differ. -/
theorem equal_names_differ :
    (sixteen 1).text = (sixteen 2).text ∧ strcmp (sixteen 1) (sixteen 2) = 0 ∧
      Returns (simdStrcmpArm (sixteen 1).byte (sixteen 2).byte) 0 1 ∧
      optimizedStrcmp .neon 2 (sixteen 1) (sixteen 2) = some 1 :=
  ⟨by decide, by decide, ⟨2, by decide +kernel⟩, by decide +kernel⟩

/-! ## SVE -/

section Sve

variable {n : Nat} {pg q : Pred n}

theorem svptestLast_all (hn : 0 < n) (h : ∀ k, pg k = true) :
    svptestLast pg q = q ⟨n - 1, Nat.sub_lt hn Nat.one_pos⟩ := by
  obtain ⟨m, rfl⟩ : ∃ m, n = m + 1 := ⟨n - 1, by omega⟩
  unfold svptestLast
  rw [List.finRange_succ_last, List.foldl_append, List.foldl_cons, List.foldl_nil, if_pos (h _)]
  rfl

theorem svptestLast_none (h : ∀ k, pg k = false) : svptestLast pg q = false := by
  unfold svptestLast
  induction List.finRange n with
  | nil => rfl
  | cons k l ih => rw [List.foldl_cons, if_neg (by rw [h k]; decide)]; exact ih

/-- In the first round all lanes are active, in the second none. -/
theorem svwhileltB8_rounds :
    (∀ k, svwhileltB8 n 0 n k = true) ∧ ∀ k, svwhileltB8 n (0 + n) n k = false := by
  unfold svwhileltB8
  constructor
  · intro k
    rw [Nat.zero_add, decide_eq_true k.isLt]
  · intro k
    rw [decide_eq_false]
    omega

/-- Zero from the terminator on, as far as a vector that holds the terminator can reach. -/
def ZeroTail (n : Nat) (s : StrPtr) : Prop := ∀ k, s.len ≤ k → k < s.len + n → s.byte k = 0

variable {a b : StrPtr}

/-- The loop looks at the last byte of the first vector, and for the terminator of `a` in it. -/
theorem simdStrcmpArmSve_returns (hn : 0 < n) (r : Int) :
    Returns (simdStrcmpArmSve n a.byte b.byte) 0 r ↔
      r = if a.byte (n - 1) = b.byte (n - 1) ∧ a.len < n then 0 else 1 := by
  obtain ⟨hall, hnone⟩ := @svwhileltB8_rounds n
  have hlast : svptestLast (svwhileltB8 n 0 n) (svcmpeqU8 (svwhileltB8 n 0 n)
      (svld1U8 (svwhileltB8 n 0 n) a.byte 0) (svld1U8 (svwhileltB8 n 0 n) b.byte 0)) =
      decide (a.byte (n - 1) = b.byte (n - 1)) := by
    rw [svptestLast_all hn hall]
    simp only [svcmpeqU8, svld1U8, hall, if_true, Bool.true_and, Nat.zero_add]
    rfl
  have hany : svptestAny (svwhileltB8 n 0 n) (svcmpeqU8 (svwhileltB8 n 0 n)
      (svld1U8 (svwhileltB8 n 0 n) a.byte 0) (svdupNU8 n 0)) = decide (a.len < n) := by
    rw [Bool.eq_iff_iff]
    simp only [svptestAny, svcmpeqU8, svld1U8, svdupNU8, hall, if_true, Bool.true_and,
      Nat.zero_add, List.any_eq_true, List.mem_finRange, true_and, beq_iff_eq, decide_eq_true_eq]
    constructor
    · rintro ⟨k, hk⟩
      exact Nat.lt_of_le_of_lt (StrPtr.len_le hk) k.isLt
    · exact fun h => ⟨⟨a.len, h⟩, a.terminated⟩
  have hfirst : simdStrcmpArmSve n a.byte b.byte 0 =
      if a.byte (n - 1) = b.byte (n - 1) then
        if a.len < n then .done 0 else .next (0 + n)
      else .done 1 := by
    unfold simdStrcmpArmSve
    simp only [hlast, hany, decide_eq_false_iff_not, decide_eq_true_eq, ite_not]
  have hsecond : simdStrcmpArmSve n a.byte b.byte (0 + n) = .done 1 := by
    unfold simdStrcmpArmSve
    simp only [svptestLast_none hnone, if_true]
  by_cases hbyte : a.byte (n - 1) = b.byte (n - 1)
  · rw [if_pos hbyte] at hfirst
    by_cases hlen : a.len < n
    · rw [if_pos hlen] at hfirst
      rw [Loop.returns_done hfirst, if_pos ⟨hbyte, hlen⟩]
    · rw [if_neg hlen] at hfirst
      rw [Loop.returns_next hfirst, Loop.returns_done hsecond, if_neg fun h => hlen h.2]
  · rw [if_neg hbyte] at hfirst
    rw [Loop.returns_done hfirst, if_neg fun h => hbyte h.1]

/-- Behind the strings the last byte of the first vector is 0. -/
theorem last_byte_eq_iff (hn : 0 < n) (ha : ZeroTail n a) (hb : ZeroTail n b) (hlen : a.len < n) :
    a.byte (n - 1) = b.byte (n - 1) ↔ b.len < n := by
  rw [ha (n - 1) (by omega) (by omega)]
  constructor
  · intro h
    have := StrPtr.len_le h.symm
    omega
  · exact fun h => (hb (n - 1) (by omega) (by omega)).symm

/-- **SVE.** On vectors of `n` bytes the loop returns 0 exactly on equal strings if and only if the
strings are equal just when both are shorter than a vector. -/
theorem sve_strcmp_iff (hn : 0 < n) (ha : ZeroTail n a) (hb : ZeroTail n b) :
    ∃ r, Returns (simdStrcmpArmSve n a.byte b.byte) 0 r ∧
      ((r = 0 ↔ a.text = b.text) ↔ (a.text = b.text ↔ a.len < n ∧ b.len < n)) := by
  refine ⟨_, (simdStrcmpArmSve_returns hn _).mpr rfl, ?_⟩
  have hcond : a.byte (n - 1) = b.byte (n - 1) ∧ a.len < n ↔ a.len < n ∧ b.len < n :=
    and_comm.trans (and_congr_right fun h => last_byte_eq_iff hn ha hb h)
  have hzero : (if a.byte (n - 1) = b.byte (n - 1) ∧ a.len < n then (0 : Int) else 1) = 0 ↔
      a.len < n ∧ b.len < n := by
    rw [← hcond]
    split
    · rename_i h
      exact iff_of_true rfl h
    · rename_i h
      exact iff_of_false (by decide) h
  rw [hzero]
  exact ⟨fun h => h.symm, fun h => h.symm⟩

/-- 16 characters, with zeros behind them. -/
def plainSixteen : StrPtr :=
  .ofText (List.replicate 16 65) [] (StrPtr.replicate_ne_zero (by decide) 16)

/-- 16 characters, the first one another. -/
def otherSixteen : StrPtr :=
  .ofText (66 :: List.replicate 15 65) []
    (List.forall_mem_cons.mpr ⟨by decide, StrPtr.replicate_ne_zero (by decide) 15⟩)

/-- On vectors of 32 bytes. -/
theorem sve_strcmp_iff_sixteen :
    ∃ r, Returns (simdStrcmpArmSve 32 plainSixteen.byte plainSixteen.byte) 0 r ∧
      ((r = 0 ↔ plainSixteen.text = plainSixteen.text) ↔
        (plainSixteen.text = plainSixteen.text ↔ plainSixteen.len < 32 ∧ plainSixteen.len < 32)) :=
  sve_strcmp_iff (by decide) (fun _ h _ => StrPtr.ofText_zero _ h)
    fun _ h _ => StrPtr.ofText_zero _ h

/-- **A difference that is missed, and equal strings that are reported different.** -/
theorem sve_wrong_answers :
    (plainSixteen.text ≠ otherSixteen.text ∧
      Returns (simdStrcmpArmSve 32 plainSixteen.byte otherSixteen.byte) 0 0) ∧
    Returns (simdStrcmpArmSve 16 plainSixteen.byte plainSixteen.byte) 0 1 :=
  ⟨⟨by decide, ⟨1, by decide +kernel⟩⟩, ⟨2, by decide +kernel⟩⟩

end Sve

/-! ## RISC-V -/

section Riscv

theorem vfirst_eq_neg_one {vl : Nat} {mask : Pred vl} : vfirst mask = -1 ↔ ∀ k, mask k = false := by
  unfold vfirst
  cases h : (List.finRange vl).find? (mask ·) with
  | none =>
    refine iff_of_true rfl fun k => ?_
    simpa using List.find?_eq_none.mp h k (List.mem_finRange k)
  | some k =>
    have hk := List.find?_some h
    refine iff_of_false (by simp only; omega) fun hall => ?_
    rw [hall k] at hk
    cases hk

variable (v : Vsetvl) {a : StrPtr} {b : Nat → UInt8}

/-- A round: a lane that is equal ends the loop with 1, and else it goes on. -/
theorem simdStrcmpRiscv_round (a : StrPtr) (b : Nat → UInt8) :
    ((∃ k, k < v.vl a.len ∧ a.byte k = b k) → simdStrcmpRiscv v (a, b) = .done 1) ∧
      ((∀ k, k < v.vl a.len → a.byte k ≠ b k) → simdStrcmpRiscv v (a, b) =
        .next (a.drop (v.vl a.len) (v.le _), fun k => b (v.vl a.len + k))) := by
  have hle := v.le a.len
  have hcmp : vfirst (fun i : Fin (v.vl a.len) => a.byte i == b i) = -1 ↔
      ∀ k, k < v.vl a.len → a.byte k ≠ b k := by
    rw [vfirst_eq_neg_one]
    simp only [beq_eq_false_iff_ne]
    exact ⟨fun h k hk => h ⟨k, hk⟩, fun h k => h k k.isLt⟩
  -- `vl` is at most the rest of the string, so its terminator is never among the lanes.
  have hnull : vfirst (fun i : Fin (v.vl a.len) => a.byte i == 0) = -1 := by
    rw [vfirst_eq_neg_one]
    intro k
    rw [beq_eq_false_iff_ne]
    exact a.nonzero k (Nat.lt_of_lt_of_le k.isLt hle)
  unfold simdStrcmpRiscv
  simp only [decide_eq_false_iff_not, hcmp, hnull, ne_eq, not_true_eq_false, if_false]
  constructor
  · rintro ⟨k, hk, heq⟩
    exact if_pos fun h => h k hk heq
  · exact fun h => if_neg (not_not_intro h)

/-- An equal byte before the terminator of `a`: the loop returns 1. -/
theorem simdStrcmpRiscv_returns_one (h : ∃ k, k < a.len ∧ a.byte k = b k) :
    Returns (simdStrcmpRiscv v) (a, b) 1 := by
  have hround : ∀ p : StrPtr × (Nat → UInt8), (∃ k, k < p.1.len ∧ p.1.byte k = p.2 k) →
      (∃ r, simdStrcmpRiscv v p = .done r ∧ r = 1) ∨
        ∃ q, simdStrcmpRiscv v p = .next q ∧ (∃ k, k < q.1.len ∧ q.1.byte k = q.2 k) ∧
          q.1.len < p.1.len := by
    rintro ⟨a, b⟩ ⟨k, hk, heq⟩
    have hround := simdStrcmpRiscv_round v a b
    by_cases hlane : ∃ k, k < v.vl a.len ∧ a.byte k = b k
    · exact .inl ⟨1, hround.1 hlane, rfl⟩
    · have hk : k < a.len := hk
      have hge : v.vl a.len ≤ k := Nat.not_lt.mp fun hlt => hlane ⟨k, hlt, heq⟩
      have hpos : v.vl a.len ≠ 0 := fun h0 => by
        have := v.pos _ h0
        omega
      refine .inr ⟨_, hround.2 fun j hj he => hlane ⟨j, hj, he⟩, ⟨k - v.vl a.len, ?_, ?_⟩, ?_⟩
      · show k - v.vl a.len < a.len - v.vl a.len
        exact Nat.sub_lt_sub_right hge hk
      · show a.byte (v.vl a.len + (k - v.vl a.len)) = b (v.vl a.len + (k - v.vl a.len))
        rw [Nat.add_sub_cancel' hge]
        exact heq
      · show a.len - v.vl a.len < a.len
        omega
  have hone := @Loop.returns_of_variant _ _ _ _ _ (fun p => p.1.len) hround (a, b) h
  obtain ⟨r, hr, rfl⟩ := hone
  exact hr

/-- Without one, the loop never ends: in the end it requests 0 lanes each round. -/
theorem simdStrcmpRiscv_not_returns (h : ∀ k, k < a.len → a.byte k ≠ b k) (r : Int) :
    ¬ Returns (simdStrcmpRiscv v) (a, b) r := by
  refine Loop.not_returns (I := fun p => ∀ k, k < p.1.len → p.1.byte k ≠ p.2 k) ?_ h r
  rintro ⟨a, b⟩ hdiff
  have hle := v.le a.len
  refine ⟨_, (simdStrcmpRiscv_round v a b).2 fun k hk => hdiff k (Nat.lt_of_lt_of_le hk hle), ?_⟩
  intro k hk
  have hk : k < a.len - v.vl a.len := hk
  exact hdiff (v.vl a.len + k) (by show _ < a.len; omega)

/-- **RISC-V.** The loop ends and returns 0 exactly on equal strings if and only if the strings
differ and have an equal byte somewhere before the terminator of `a`. -/
theorem riscv_strcmp_iff (a b : StrPtr) :
    (∃ r, Returns (simdStrcmpRiscv v) (a, b.byte) r ∧ (r = 0 ↔ a.text = b.text)) ↔
      a.text ≠ b.text ∧ ∃ k, k < a.len ∧ a.byte k = b.byte k := by
  by_cases hlane : ∃ k, k < a.len ∧ a.byte k = b.byte k
  · have hone := simdStrcmpRiscv_returns_one v hlane
    constructor
    · rintro ⟨r, hr, hzero⟩
      refine ⟨fun htext => ?_, hlane⟩
      have hr₀ := hzero.mpr htext
      rw [hr.unique hone] at hr₀
      exact absurd hr₀ (by decide)
    · rintro ⟨hne, -⟩
      exact ⟨1, hone, iff_of_false (by decide) hne⟩
  · refine iff_of_false (fun ⟨r, hr, _⟩ => ?_) fun h => hlane h.2
    exact simdStrcmpRiscv_not_returns v (fun k hk he => hlane ⟨k, hk, he⟩) r hr

/-- Vectors of 128 lanes. -/
def vsetvl128 : Vsetvl where
  vl := fun n => min n 128
  le := fun n => Nat.min_le_left n 128
  pos := fun n h => by omega

/-- 16 characters, each of them another. -/
def differentSixteen : StrPtr :=
  .ofText (List.replicate 16 66) [] (StrPtr.replicate_ne_zero (by decide) 16)

/-- **Equal strings that are reported different, and a comparison that never ends.** -/
theorem riscv_wrong_answers :
    Returns (simdStrcmpRiscv vsetvl128) (plainSixteen, plainSixteen.byte) 1 ∧
      ∀ r, ¬ Returns (simdStrcmpRiscv vsetvl128) (plainSixteen, differentSixteen.byte) r :=
  ⟨simdStrcmpRiscv_returns_one vsetvl128 ⟨0, by decide, rfl⟩,
    simdStrcmpRiscv_not_returns vsetvl128 (by decide)⟩

end Riscv

end Utils
end CoreCDTL
