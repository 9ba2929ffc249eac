import Mathlib.Data.List.TakeWhile
import Mathlib.Algebra.Group.Nat.Defs
import Mathlib.Algebra.Ring.Int.Defs

/-!
# C strings and the libc functions on them

A C string is the list of its characters before the terminating NUL (`CStr`); a buffer is a list
of characters that may hold a NUL, and `cstr` is the C string in it. The functions keep their
libc names and follow their documented behaviour (glibc's where C leaves a case open):

* `snprintf size text`: the C string that a formatted `text` leaves in a buffer of `size` bytes;
* `fmtD`: the text of `%d`; `strtol` and `atoi` read it back (`atoi_fmtD`);
* `strchr c s`: the parts of `s` before and after its first `c`;
* `strtok d s`: the next token and what is left, `tokens d s`: all of them. A text made of
  non-empty pieces, each closed by a delimiter, has exactly these pieces as tokens
  (`tokens_append`);
* `word d s`: the first word, and `gap d s` the characters in front of it. It is in the first `n`
  characters of a text exactly when it ends there (`word_take_eq_iff`).
-/

namespace CoreCDTL

/-- The characters of a C string, without its NUL. -/
abbrev CStr := List Char

/-- The terminator. -/
def nul : Char := Char.ofNat 0

/-- The C string in a buffer. -/
def cstr (buf : List Char) : CStr := buf.takeWhile (· ≠ nul)

/-- The C string that `snprintf(buf, size, ..)` leaves in `buf` for the formatted characters
`text` (`size` is positive). -/
def snprintf (size : Nat) (text : List Char) : CStr := cstr (text.take (size - 1))

/-- `strncpy(buf, s, size)` with the last byte of `buf` set to NUL. -/
def strncpy (size : Nat) (s : CStr) : CStr := s.take (size - 1)

/-- The text of `%d`. -/
def fmtD (n : Int) : CStr :=
  if n < 0 then '-' :: Nat.toDigits 10 n.natAbs else Nat.toDigits 10 n.natAbs

/-- `isspace` in the C locale. -/
def isspace (c : Char) : Bool :=
  c = ' ' || c = '\t' || c = '\n' || c = '\r' || c = Char.ofNat 11 || c = Char.ofNat 12

/-- The sign and the digits of a number, as `strtol` reads them: blanks, an optional sign, then
the digits up to the first other character. -/
def strtolParts (s : CStr) : Bool × CStr :=
  match s.dropWhile isspace with
  | '-' :: t => (true, t.takeWhile Char.isDigit)
  | '+' :: t => (false, t.takeWhile Char.isDigit)
  | t => (false, t.takeWhile Char.isDigit)

/-- `strtol(s, .., 10)`: the number, clamped to the range of `long`. -/
def strtol (s : CStr) : Int :=
  let v : Int := Nat.ofDigitChars 10 (strtolParts s).2 0
  if (strtolParts s).1 then max (-v) (-(2 ^ 63)) else min v (2 ^ 63 - 1)

/-- `atoi(s)`: `strtol` converted to `int`. -/
def atoi (s : CStr) : Int := (strtol s).bmod (2 ^ 32)

/-- `strchr(s, c)`: the parts of `s` before and after its first `c`, if it has one. -/
def strchr (c : Char) (s : CStr) : Option (CStr × CStr) :=
  if c ∈ s then some (s.takeWhile (· ≠ c), (s.dropWhile (· ≠ c)).drop 1) else none

/-- `strtok`: the next token of `s` between characters of `d`, and the rest after the delimiter
that ended it. -/
def strtok (d : Char → Bool) (s : CStr) : Option (CStr × CStr) :=
  match s.dropWhile d with
  | [] => none
  | c :: t => some ((c :: t).takeWhile (! d ·), ((c :: t).dropWhile (! d ·)).drop 1)

/-- The tokens of at most `n` calls of `strtok`. -/
def tokensUpTo (d : Char → Bool) : Nat → CStr → List CStr
  | 0, _ => []
  | n + 1, s =>
    match strtok d s with
    | none => []
    | some (tok, rest) => tok :: tokensUpTo d n rest

/-- All tokens of `s`: each call of `strtok` takes a character, so `s.length` calls are enough. -/
def tokens (d : Char → Bool) (s : CStr) : List CStr := tokensUpTo d s.length s

/-- `%Ns` of `sscanf`: blanks are skipped, then up to `n` other characters are taken. -/
def scanWord (n : Nat) (s : CStr) : Option (CStr × CStr) :=
  let t := s.dropWhile isspace
  let w := (t.takeWhile fun c => ! isspace c).take n
  if w = [] then none else some (w, t.drop w.length)

/-- `tolower` in the C locale. -/
def tolower (c : Char) : Char :=
  if 'A' ≤ c ∧ c ≤ 'Z' then Char.ofNat (c.toNat + 32) else c

/-- `strcasecmp(s, t) == 0`. -/
def strcaseEq (s t : CStr) : Bool := s.map tolower = t.map tolower

/-- The buffers that `fgets(line, size, file)` fills in turn: each holds what is left of the text
up to a newline, at most `size - 1` characters. `room` is what the current one can still take and
`acc` what it holds, the last character first. -/
def fgetsFrom (size : Nat) : Nat → List Char → List Char → List (List Char)
  | _, acc, [] => if acc = [] then [] else [acc.reverse]
  | room, acc, c :: t =>
    if c = '\n' ∨ room ≤ 1 then (c :: acc).reverse :: fgetsFrom size (size - 1) [] t
    else fgetsFrom size (room - 1) (c :: acc) t

/-- All buffers of `fgets` on a text. -/
def fgetsLines (size : Nat) (text : List Char) : List (List Char) :=
  fgetsFrom size (size - 1) [] text

/-- `line[strcspn(line, "\r\n")] = 0`. -/
def chomp (line : List Char) : CStr := (cstr line).takeWhile fun c => c ≠ '\r' ∧ c ≠ '\n'

/-! ## `snprintf` -/

theorem cstr_eq_self {s : List Char} (h : nul ∉ s) : cstr s = s := by
  apply List.takeWhile_eq_self_iff.mpr
  intro c hc
  simpa using fun e : c = nul => h (e ▸ hc)

theorem nul_not_mem_cstr (s : List Char) : nul ∉ cstr s := by
  intro h
  have := List.mem_takeWhile_imp h
  simp at this

/-- A text without NUL that leaves room for the terminator is in the buffer as it is. -/
theorem snprintf_eq_self {size : Nat} {text : List Char} (h : nul ∉ text)
    (hlen : text.length < size) : snprintf size text = text := by
  unfold snprintf
  rw [List.take_of_length_le (by omega), cstr_eq_self h]

theorem snprintf_length_le (size : Nat) (text : List Char) :
    (snprintf size text).length ≤ text.length := by
  have h₁ : (snprintf size text).length ≤ (text.take (size - 1)).length :=
    (List.takeWhile_prefix _).length_le
  rw [List.length_take] at h₁
  omega

theorem snprintf_length_lt {size : Nat} (h : 0 < size) (text : List Char) :
    (snprintf size text).length < size := by
  have h₁ : (snprintf size text).length ≤ (text.take (size - 1)).length :=
    (List.takeWhile_prefix _).length_le
  have h₂ := List.length_take_le (size - 1) text
  omega

/-- A text of at most `k` characters without NUL. -/
structure Fits (k : Nat) (text : List Char) : Prop where
  noNul : nul ∉ text
  length_le : text.length ≤ k

instance (k : Nat) (text : List Char) : Decidable (Fits k text) :=
  decidable_of_iff (nul ∉ text ∧ text.length ≤ k) ⟨fun h => ⟨h.1, h.2⟩, fun h => ⟨h.1, h.2⟩⟩

theorem Fits.append {k l : Nat} {a b : List Char} (ha : Fits k a) (hb : Fits l b) :
    Fits (k + l) (a ++ b) where
  noNul := by
    rw [List.mem_append]
    exact not_or.mpr ⟨ha.noNul, hb.noNul⟩
  length_le := by
    rw [List.length_append]
    exact Nat.add_le_add ha.length_le hb.length_le

theorem Fits.snprintf_eq {k size : Nat} {text : List Char} (h : Fits k text) (hk : k < size) :
    snprintf size text = text :=
  snprintf_eq_self h.noNul (Nat.lt_of_le_of_lt h.length_le hk)

/-! ## Decimal numbers -/

theorem isDigit_of_mem_fmtD_nat {n : Nat} {c : Char} (h : c ∈ Nat.toDigits 10 n) :
    c.isDigit = true :=
  Nat.isDigit_of_mem_toDigits (by decide) (by decide) h

/-- The text of `%d` has only digits and a minus sign. -/
theorem mem_fmtD {n : Int} {c : Char} (h : c ∈ fmtD n) : c = '-' ∨ c.isDigit = true := by
  unfold fmtD at h
  split at h
  · rcases List.mem_cons.mp h with h | h
    · exact .inl h
    · exact .inr (isDigit_of_mem_fmtD_nat h)
  · exact .inr (isDigit_of_mem_fmtD_nat h)

/-- A character that is neither a digit nor a minus sign is not in the text of `%d`. -/
theorem not_mem_fmtD {c : Char} (h₁ : c ≠ '-') (h₂ : c.isDigit = false) (n : Int) :
    c ∉ fmtD n := by
  intro h
  rcases mem_fmtD h with h | h
  · exact h₁ h
  · rw [h₂] at h; cases h

theorem isspace_of_isDigit {c : Char} (h : c.isDigit = true) : isspace c = false := by
  simp only [isspace, Bool.or_eq_false_iff, decide_eq_false_iff_not]
  refine ⟨⟨⟨⟨⟨?_, ?_⟩, ?_⟩, ?_⟩, ?_⟩, ?_⟩ <;> rintro rfl <;> revert h <;> decide

/-- Digits alone, and digits behind a minus sign. -/
theorem strtolParts_digits {l : List Char} (hl : ∀ c ∈ l, c.isDigit = true) :
    strtolParts l = (false, l) ∧ strtolParts ('-' :: l) = (true, l) := by
  have htake : l.takeWhile Char.isDigit = l := List.takeWhile_eq_self_iff.mpr hl
  have hneg : ('-' :: l).dropWhile isspace = '-' :: l := List.dropWhile_cons_of_neg (by decide)
  constructor
  · cases l with
    | nil => rfl
    | cons c t =>
      have hc : c.isDigit = true := hl c List.mem_cons_self
      have hdrop : (c :: t).dropWhile isspace = c :: t :=
        List.dropWhile_cons_of_neg (by simp [isspace_of_isDigit hc])
      unfold strtolParts
      rw [hdrop]
      split
      · rename_i e
        cases e
        exact absurd hc (by decide)
      · rename_i e
        cases e
        exact absurd hc (by decide)
      · rw [htake]
  · unfold strtolParts
    rw [hneg]
    simp only [htake]

/-- A number of digits in the range of `long`. -/
theorem strtol_digits {l : List Char} (hl : ∀ c ∈ l, c.isDigit = true) :
    (Nat.ofDigitChars 10 l 0 < 2 ^ 63 → strtol l = Nat.ofDigitChars 10 l 0) ∧
      (Nat.ofDigitChars 10 l 0 ≤ 2 ^ 63 → strtol ('-' :: l) = -(Nat.ofDigitChars 10 l 0)) := by
  obtain ⟨h₁, h₂⟩ := strtolParts_digits hl
  constructor
  · intro h
    unfold strtol
    rw [h₁]
    simp only [Bool.false_eq_true, ↓reduceIte]
    omega
  · intro h
    unfold strtol
    rw [h₂]
    simp only [↓reduceIte]
    omega

theorem strtol_fmtD {n : Int} (h₁ : -(2 ^ 63) ≤ n) (h₂ : n < 2 ^ 63) : strtol (fmtD n) = n := by
  have hd : ∀ c ∈ Nat.toDigits 10 n.natAbs, c.isDigit = true := fun _ => isDigit_of_mem_fmtD_nat
  have hv : Nat.ofDigitChars 10 (Nat.toDigits 10 n.natAbs) 0 = n.natAbs :=
    Nat.ofDigitChars_ten_toDigits
  unfold fmtD
  split
  · rw [(strtol_digits hd).2 (by omega), hv]
    omega
  · rw [(strtol_digits hd).1 (by omega), hv]
    omega

theorem fmtD_ne_nil (n : Int) : fmtD n ≠ [] := by
  unfold fmtD
  split
  · exact List.cons_ne_nil _ _
  · exact Nat.toDigits_ne_nil

/-- No blank is in the text of `%d`. -/
theorem isspace_fmtD {n : Int} {c : Char} (h : c ∈ fmtD n) : isspace c = false := by
  rcases mem_fmtD h with rfl | h
  · decide
  · exact isspace_of_isDigit h

theorem nul_not_mem_fmtD (n : Int) : nul ∉ fmtD n := not_mem_fmtD (by decide) (by decide) n

/-- A number of at most `k` digits has a text of at most `k + 1` characters. -/
theorem fits_fmtD {n : Int} {k : Nat} (hk : 0 < k) (h : n.natAbs < 10 ^ k) :
    Fits (k + 1) (fmtD n) where
  noNul := nul_not_mem_fmtD n
  length_le := by
    have hdigits := (Nat.length_toDigits_le_iff (by decide) hk).mpr h
    unfold fmtD
    split
    · exact Nat.succ_le_succ hdigits
    · exact Nat.le_succ_of_le hdigits

/-- **Decimal round trip.** `atoi` reads back what `%d` wrote, for every `int`. -/
theorem atoi_fmtD {n : Int} (h₁ : -(2 ^ 31) ≤ n) (h₂ : n < 2 ^ 31) : atoi (fmtD n) = n := by
  unfold atoi
  rw [strtol_fmtD (by omega) (by omega)]
  exact Int.bmod_eq_of_le (by omega) (by omega)

/-- A proper prefix of the digits of a number has at most a tenth of its value. -/
theorem ofDigitChars_take {n j : Nat} (hj : j < (Nat.toDigits 10 n).length) :
    10 * Nat.ofDigitChars 10 ((Nat.toDigits 10 n).take j) 0 ≤ n := by
  have hn : Nat.ofDigitChars 10 (Nat.toDigits 10 n) 0 = n := Nat.ofDigitChars_ten_toDigits
  rw [← List.take_append_drop j (Nat.toDigits 10 n), Nat.ofDigitChars_append,
    Nat.ofDigitChars_eq_ofDigitChars_zero, List.length_drop] at hn
  obtain ⟨r, hr⟩ := Nat.exists_eq_add_of_lt hj
  have hpow : 10 ≤ 10 ^ ((Nat.toDigits 10 n).length - j) := by
    rw [hr, show j + r + 1 - j = r + 1 by omega, Nat.pow_succ]
    exact Nat.le_mul_of_pos_left 10 (Nat.pow_pos (by decide))
  calc 10 * Nat.ofDigitChars 10 ((Nat.toDigits 10 n).take j) 0
      ≤ 10 ^ ((Nat.toDigits 10 n).length - j) *
          Nat.ofDigitChars 10 ((Nat.toDigits 10 n).take j) 0 := Nat.mul_le_mul_right _ hpow
    _ ≤ n := by omega

/-- **A decimal text that is cut off.** `atoi` reads the number from its first `k` characters if
these are all, or if the number is 0. -/
theorem atoi_take_fmtD {n : Int} (h₁ : -(2 ^ 31) ≤ n) (h₂ : n < 2 ^ 31) (k : Nat) :
    atoi ((fmtD n).take k) = n ↔ (fmtD n).length ≤ k ∨ n = 0 := by
  constructor
  · intro h
    by_contra hno
    obtain ⟨hk, hn⟩ := not_or.mp hno
    -- The digits that are left have the value `m`, and ten times `m` is at most `n`.
    have hbound : ∀ j, j < (Nat.toDigits 10 n.natAbs).length →
        ∃ m : Nat, 10 * m ≤ n.natAbs ∧ strtol ((Nat.toDigits 10 n.natAbs).take j) = m ∧
          strtol ('-' :: (Nat.toDigits 10 n.natAbs).take j) = -m := by
      intro j hj
      have hm := ofDigitChars_take hj
      have hd : ∀ c ∈ (Nat.toDigits 10 n.natAbs).take j, c.isDigit = true :=
        fun c hc => isDigit_of_mem_fmtD_nat (List.mem_of_mem_take hc)
      exact ⟨_, hm, (strtol_digits hd).1 (by omega), (strtol_digits hd).2 (by omega)⟩
    have hread : ∃ m : Nat, 10 * m ≤ n.natAbs ∧
        (strtol ((fmtD n).take k) = m ∨ strtol ((fmtD n).take k) = -m) := by
      unfold fmtD at hk ⊢
      split at hk
      · rename_i hneg
        rw [if_pos hneg]
        cases k with
        | zero => exact ⟨0, Nat.zero_le _, .inl rfl⟩
        | succ j =>
          obtain ⟨m, hm, -, hr⟩ := hbound j (by simpa using hk)
          exact ⟨m, hm, .inr hr⟩
      · rename_i hpos
        rw [if_neg hpos]
        obtain ⟨m, hm, hr, -⟩ := hbound k (by omega)
        exact ⟨m, hm, .inl hr⟩
    obtain ⟨m, hm, hr⟩ := hread
    unfold atoi at h
    rcases hr with hr | hr
    · rw [hr, Int.bmod_eq_of_le (by omega) (by omega)] at h
      omega
    · rw [hr, Int.bmod_eq_of_le (by omega) (by omega)] at h
      omega
  · rintro (h | rfl)
    · rw [List.take_of_length_le h, atoi_fmtD h₁ h₂]
    · have hzero : fmtD 0 = ['0'] := rfl
      rw [hzero]
      cases k with
      | zero => rfl
      | succ k =>
        rw [List.take_succ_cons, List.take_nil]
        decide

/-! ## `strchr` and `strtok` -/

theorem takeWhile_append_cons {α : Type} {p : α → Bool} {a b : List α} {c : α}
    (ha : ∀ x ∈ a, p x = true) (hc : p c = false) : (a ++ c :: b).takeWhile p = a := by
  rw [List.takeWhile_append_of_pos ha, List.takeWhile_cons_of_neg (by simp [hc]), List.append_nil]

theorem dropWhile_append_cons {α : Type} {p : α → Bool} {a b : List α} {c : α}
    (ha : ∀ x ∈ a, p x = true) (hc : p c = false) : (a ++ c :: b).dropWhile p = c :: b := by
  rw [List.dropWhile_append_of_pos ha, List.dropWhile_cons_of_neg (by simp [hc])]

/-- `strchr` splits at the first `c`. -/
theorem strchr_append {c : Char} {a b : CStr} (h : c ∉ a) :
    strchr c (a ++ c :: b) = some (a, b) := by
  have ha : ∀ x ∈ a, decide (x ≠ c) = true := by
    intro x hx
    simpa using fun e : x = c => h (e ▸ hx)
  unfold strchr
  rw [if_pos (by simp), takeWhile_append_cons ha (by simp), dropWhile_append_cons ha (by simp)]
  rfl

/-- What `strchr` splits, and where. -/
theorem strchr_eq_some {c : Char} {s a b : CStr} (h : strchr c s = some (a, b)) :
    s = a ++ c :: b ∧ c ∉ a := by
  have hc : c ∈ s := by
    by_contra hc
    rw [strchr, if_neg hc] at h
    cases h
  obtain ⟨x, y, rfl, hx⟩ := List.eq_append_cons_of_mem hc
  rw [strchr_append hx] at h
  cases h
  exact ⟨rfl, hx⟩

/-- Text behind a `c` belongs to the second part. -/
theorem strchr_concat {c : Char} {s a b : CStr} (t : CStr) (h : strchr c s = some (a, b)) :
    strchr c (s ++ t) = some (a, b ++ t) := by
  obtain ⟨rfl, hc⟩ := strchr_eq_some h
  rw [List.append_assoc, List.cons_append, strchr_append hc]

/-- A non-empty piece without delimiters is the next token. -/
theorem strtok_append {d : Char → Bool} {a b : CStr} {c : Char} (hne : a ≠ [])
    (ha : ∀ x ∈ a, d x = false) (hc : d c = true) : strtok d (a ++ c :: b) = some (a, b) := by
  obtain ⟨x, t, rfl⟩ := List.exists_cons_of_ne_nil hne
  have hx : d x = false := ha x (by simp)
  have ha' : ∀ y ∈ x :: t, (! d y) = true := fun y hy => by simp [ha y hy]
  have hdrop : ((x :: t) ++ c :: b).dropWhile d = (x :: t) ++ c :: b := by
    rw [List.cons_append, List.dropWhile_cons_of_neg (by simp [hx])]
  unfold strtok
  rw [hdrop]
  change some (((x :: t) ++ c :: b).takeWhile (! d ·), (((x :: t) ++ c :: b).dropWhile (! d ·)).drop 1) = _
  rw [takeWhile_append_cons ha' (by simp [hc]), dropWhile_append_cons ha' (by simp [hc])]
  rfl

/-- What is left behind the delimiters begins with none. -/
theorem dropWhile_head {d : Char → Bool} {s t : CStr} {c : Char} (h : s.dropWhile d = c :: t) :
    d c = false := by
  have hhead := List.head?_dropWhile_not d s
  rw [h] at hhead
  exact hhead

/-- The rest after a token is shorter. -/
theorem strtok_length {d : Char → Bool} {s tok rest : CStr} (h : strtok d s = some (tok, rest)) :
    rest.length < s.length := by
  unfold strtok at h
  split at h
  · cases h
  · rename_i c t hs
    simp only [Option.some.injEq, Prod.mk.injEq] at h
    have h₁ : (c :: t).length ≤ s.length := hs ▸ (List.dropWhile_suffix d).length_le
    have hd : d c = false := dropWhile_head hs
    have h₂ : ((c :: t).dropWhile (! d ·)).length ≤ t.length := by
      rw [List.dropWhile_cons_of_pos (by simp [hd])]
      exact (List.dropWhile_suffix _).length_le
    rw [← h.2]
    simp only [List.length_drop, List.length_cons] at h₁ h₂ ⊢
    omega

/-- More calls of `strtok` than characters give no more tokens. -/
theorem tokensUpTo_congr {d : Char → Bool} {n m : Nat} {s : CStr} (hn : s.length ≤ n)
    (hm : s.length ≤ m) : tokensUpTo d n s = tokensUpTo d m s := by
  induction n generalizing m s with
  | zero =>
    obtain rfl : s = [] := List.length_eq_zero_iff.mp (by omega)
    cases m <;> rfl
  | succ n ih =>
    cases m with
    | zero =>
      obtain rfl : s = [] := List.length_eq_zero_iff.mp (by omega)
      rfl
    | succ m =>
      cases hs : strtok d s with
      | none => simp only [tokensUpTo, hs]
      | some p =>
        have hlt : p.2.length < s.length := strtok_length hs
        have heq : tokensUpTo d n p.2 = tokensUpTo d m p.2 := ih (by omega) (by omega)
        simp only [tokensUpTo, hs, heq]

/-- **Tokens of a closed piece.** -/
theorem tokens_append {d : Char → Bool} {a b : CStr} {c : Char} (hne : a ≠ [])
    (ha : ∀ x ∈ a, d x = false) (hc : d c = true) :
    tokens d (a ++ c :: b) = a :: tokens d b := by
  unfold tokens
  have hl : (a ++ c :: b).length = (a.length + b.length) + 1 := by
    simp only [List.length_append, List.length_cons]; omega
  rw [hl, tokensUpTo, strtok_append hne ha hc]
  simp only [List.cons.injEq, true_and]
  exact tokensUpTo_congr (by omega) (Nat.le_refl _)

/-- A text with a delimiter starts with a piece without one. -/
theorem exists_piece {d : Char → Bool} {a : CStr} (h : ¬ ∀ y ∈ a, d y = false) :
    ∃ w c r, (∀ y ∈ w, d y = false) ∧ d c = true ∧ a = w ++ c :: r := by
  induction a with
  | nil => exact absurd (fun y hy => by cases hy) h
  | cons x t ih =>
    by_cases hx : d x = true
    · exact ⟨[], x, t, by simp, hx, rfl⟩
    · have hx' : d x = false := by simpa using hx
      obtain ⟨w, c, r, hw, hc, rfl⟩ := ih fun ht => h fun y hy => by
        rcases List.mem_cons.mp hy with rfl | hy
        · exact hx'
        · exact ht y hy
      refine ⟨x :: w, c, r, fun y hy => ?_, hc, rfl⟩
      rcases List.mem_cons.mp hy with rfl | hy
      · exact hx'
      · exact hw y hy

/-- A delimiter in front of a text is skipped. -/
theorem tokens_cons {d : Char → Bool} {c : Char} (hc : d c = true) (s : CStr) :
    tokens d (c :: s) = tokens d s := by
  have h : strtok d (c :: s) = strtok d s := by
    unfold strtok
    rw [List.dropWhile_cons_of_pos hc]
  calc tokens d (c :: s) = tokensUpTo d (s.length + 1) s := by
        unfold tokens
        rw [List.length_cons, tokensUpTo, tokensUpTo, h]
    _ = tokens d s := tokensUpTo_congr (by omega) (Nat.le_refl _)

/-- A text without delimiters is one token. -/
theorem tokens_piece {d : Char → Bool} {a : CStr} (hne : a ≠ []) (ha : ∀ x ∈ a, d x = false) :
    tokens d a = [a] := by
  obtain ⟨x, t, rfl⟩ := List.exists_cons_of_ne_nil hne
  have hall : ∀ y ∈ x :: t, (! d y) = true := fun y hy => by simp [ha y hy]
  have hs : strtok d (x :: t) = some (x :: t, []) := by
    unfold strtok
    rw [List.dropWhile_cons_of_neg (by simp [ha x (by simp)])]
    simp only [List.takeWhile_eq_self_iff.mpr hall, List.dropWhile_eq_nil_iff.mpr hall,
      List.drop_nil]
  have hnil : tokensUpTo d t.length [] = [] := by cases t.length <;> rfl
  unfold tokens
  rw [List.length_cons, tokensUpTo, hs]
  simp only [hnil]

/-- **Tokens of two texts around a delimiter.** -/
theorem tokens_append_cons {d : Char → Bool} {c : Char} (hc : d c = true) (a b : CStr) :
    tokens d (a ++ c :: b) = tokens d a ++ tokens d b := by
  induction hn : a.length using Nat.strong_induction_on generalizing a with
  | _ n ih =>
    subst hn
    cases a with
    | nil => exact tokens_cons hc b
    | cons x t =>
      by_cases hx : d x = true
      · rw [List.cons_append, tokens_cons hx, tokens_cons hx]
        exact ih t.length (by simp) t rfl
      · by_cases hall : ∀ y ∈ x :: t, d y = false
        · rw [tokens_append (by simp) hall hc, tokens_piece (by simp) hall]
          rfl
        · -- The first delimiter of `a` closes a piece that both sides share.
          obtain ⟨w, e, r, hw, he, heq⟩ := exists_piece hall
          have hne : w ≠ [] := by
            rintro rfl
            simp only [List.nil_append, List.cons.injEq] at heq
            exact hx (heq.1 ▸ he)
          rw [heq, List.append_assoc, List.cons_append, tokens_append hne hw he,
            tokens_append hne hw he, List.cons_append]
          have hlen : r.length < (x :: t).length := by
            rw [heq, List.length_append, List.length_cons]; omega
          rw [ih r.length hlen r rfl]

/-- **A text that is cut off.** Its tokens are those of the whole text, up to a last one that may be
cut off. -/
theorem tokens_take (d : Char → Bool) (s : CStr) (n : Nat) :
    ∃ ts us, tokens d s = ts ++ us ∧ (tokens d (s.take n) = ts ∨
      ∃ w tok rest, us = tok :: rest ∧ tokens d (s.take n) = ts ++ [w] ∧ w <+: tok) := by
  induction hlen : s.length using Nat.strongRecOn generalizing s n with
  | ind k ih =>
    by_cases hs : ∀ x ∈ s, d x = false
    · by_cases hcut : s.take n = []
      · exact ⟨[], tokens d s, rfl, .inl (by rw [hcut]; rfl)⟩
      · have hne : s ≠ [] := fun h => hcut (by rw [h, List.take_nil])
        refine ⟨[], [s], tokens_piece hne hs, .inr ⟨s.take n, s, [], rfl, ?_, List.take_prefix n s⟩⟩
        exact tokens_piece hcut fun x hx => hs x (List.mem_of_mem_take hx)
    · obtain ⟨a, c, b, ha, hc, rfl⟩ := exists_piece hs
      have hab := tokens_append_cons hc a b
      by_cases hn : n ≤ a.length
      · rw [List.take_append_of_le_length hn]
        by_cases hcut : a.take n = []
        · exact ⟨[], _, rfl, .inl (by rw [hcut]; rfl)⟩
        · have hne : a ≠ [] := fun h => hcut (by rw [h, List.take_nil])
          refine ⟨[], a :: tokens d b, by rw [hab, tokens_piece hne ha]; rfl,
            .inr ⟨a.take n, a, _, rfl, ?_, List.take_prefix n a⟩⟩
          exact tokens_piece hcut fun x hx => ha x (List.mem_of_mem_take hx)
      · obtain ⟨m, hm⟩ : ∃ m, n = a.length + (m + 1) := ⟨n - a.length - 1, by omega⟩
        have htake : (a ++ c :: b).take n = a ++ c :: b.take m := by
          rw [hm, List.take_length_add_append, List.take_succ_cons]
        obtain ⟨ts, us, hts, hcut⟩ := ih b.length (by
          rw [← hlen, List.length_append, List.length_cons]; omega) b m rfl
        refine ⟨tokens d a ++ ts, us, by rw [hab, hts, List.append_assoc], ?_⟩
        rw [htake, tokens_append_cons hc]
        rcases hcut with hcut | ⟨w, tok, rest, hus, hcut, hpre⟩
        · exact .inl (by rw [hcut])
        · exact .inr ⟨w, tok, rest, hus, by rw [hcut, List.append_assoc], hpre⟩

theorem tokens_length_le (d : Char → Bool) (s : CStr) : (tokens d s).length ≤ s.length := by
  have h : ∀ n s, (tokensUpTo d n s).length ≤ n := by
    intro n
    induction n with
    | zero => exact fun _ => Nat.le_refl _
    | succ n ih =>
      intro s
      rw [tokensUpTo]
      split
      · exact Nat.zero_le _
      · exact Nat.succ_le_succ (ih _)
  exact h _ _

/-- The characters of a token and of the rest are characters of the text. -/
theorem mem_of_mem_strtok {d : Char → Bool} {s tok rest : CStr}
    (h : strtok d s = some (tok, rest)) {c : Char} (hc : c ∈ tok ∨ c ∈ rest) : c ∈ s := by
  unfold strtok at h
  split at h
  · cases h
  · rename_i x t hs
    simp only [Option.some.injEq, Prod.mk.injEq] at h
    obtain ⟨rfl, rfl⟩ := h
    apply (List.dropWhile_suffix d).mem
    rw [hs]
    rcases hc with hc | hc
    · exact (List.takeWhile_prefix _).mem hc
    · exact (List.dropWhile_suffix _).mem (List.mem_of_mem_drop hc)

theorem mem_of_mem_tokens {d : Char → Bool} {s t : CStr} (ht : t ∈ tokens d s) {c : Char}
    (hc : c ∈ t) : c ∈ s := by
  have h : ∀ n s, t ∈ tokensUpTo d n s → c ∈ s := by
    intro n
    induction n with
    | zero => exact fun _ ht => nomatch ht
    | succ n ih =>
      intro s ht
      rw [tokensUpTo] at ht
      split at ht
      · exact absurd ht (by simp)
      · rename_i tok rest hs
        rcases List.mem_cons.mp ht with rfl | ht
        · exact mem_of_mem_strtok hs (.inl hc)
        · exact mem_of_mem_strtok hs (.inr (ih rest ht))
  exact h _ _ ht

/-- The first token of a text, and what stands around it. -/
theorem tokens_eq_cons {d : Char → Bool} {s w : CStr} {ws : List CStr} (h : tokens d s = w :: ws) :
    ∃ pre post, s = pre ++ w ++ post ∧ (∀ c ∈ pre, d c = true) ∧ w ≠ [] ∧ (∀ c ∈ w, d c = false) ∧
      (∀ c ∈ post.head?, d c = true) ∧ tokens d post = ws := by
  unfold tokens at h
  cases hn : s.length with
  | zero => rw [hn] at h; cases h
  | succ n =>
    rw [hn, tokensUpTo] at h
    cases hs : strtok d s with
    | none => rw [hs] at h; cases h
    | some p =>
      obtain ⟨tok, rest⟩ := p
      have hlt := strtok_length hs
      rw [hs] at h
      obtain ⟨rfl, hrest⟩ := List.cons.inj h
      have hws : tokens d rest = ws := by
        rw [← hrest]
        exact tokensUpTo_congr (Nat.le_refl _) (by omega)
      unfold strtok at hs
      split at hs
      · cases hs
      · rename_i c t ht
        simp only [Option.some.injEq, Prod.mk.injEq] at hs
        obtain ⟨rfl, rfl⟩ := hs
        have hc : d c = false := dropWhile_head ht
        refine ⟨s.takeWhile d, (c :: t).dropWhile (! d ·), ?_, fun x hx => List.mem_takeWhile_imp hx,
          ?_, fun x hx => ?_, fun x hx => ?_, ?_⟩
        · rw [List.append_assoc, List.takeWhile_append_dropWhile, ← ht,
            List.takeWhile_append_dropWhile]
        · rw [List.takeWhile_cons_of_pos (by simp [hc])]
          exact List.cons_ne_nil _ _
        · simpa using List.mem_takeWhile_imp hx
        · have hx' := List.head?_dropWhile_not (! d ·) (c :: t)
          rw [Option.mem_def.mp hx] at hx'
          simpa using hx'
        · cases hp : (c :: t).dropWhile (! d ·) with
          | nil => rw [hp] at hws; exact hws
          | cons x r =>
            have hdx : d x = true := by simpa using dropWhile_head hp
            rw [hp] at hws
            rw [tokens_cons hdx]
            exact hws

/-! ## Words of a text that is cut -/

/-- The number of characters of `d` in front of a text. -/
def gap (d : Char → Bool) (s : CStr) : Nat := (s.takeWhile d).length

/-- The first word of a text between characters of `d`, if there is one. -/
def word (d : Char → Bool) (s : CStr) : Option CStr :=
  let w := (s.dropWhile d).takeWhile (! d ·)
  if w = [] then none else some w

theorem dropWhile_eq_drop_gap (d : Char → Bool) (s : CStr) : s.dropWhile d = s.drop (gap d s) := by
  unfold gap
  have h : (s.takeWhile d ++ s.dropWhile d).drop (s.takeWhile d).length = s.dropWhile d :=
    List.drop_left
  rwa [List.takeWhile_append_dropWhile, eq_comm] at h

theorem gap_take (d : Char → Bool) (s : CStr) (n : Nat) : gap d (s.take n) = min n (gap d s) := by
  unfold gap
  rw [← List.take_takeWhile, List.length_take]

theorem dropWhile_take (d : Char → Bool) (s : CStr) (n : Nat) :
    (s.take n).dropWhile d = (s.dropWhile d).take (n - gap d s) := by
  rw [dropWhile_eq_drop_gap, dropWhile_eq_drop_gap, gap_take, List.drop_take]
  rcases Nat.le_total n (gap d s) with h | h
  · rw [Nat.min_eq_left h, Nat.sub_self, Nat.sub_eq_zero_of_le h, List.take_zero, List.take_zero]
  · rw [Nat.min_eq_right h]

/-- The first word of a text is that of its first `n` characters exactly when it ends within. -/
theorem word_take_eq_iff {d : Char → Bool} {s : CStr} {n : Nat} :
    word d (s.take n) = word d s ↔ ∀ w ∈ word d s, gap d s + w.length ≤ n := by
  unfold word
  simp only
  rw [dropWhile_take, ← List.take_takeWhile]
  by_cases hw : (s.dropWhile d).takeWhile (! d ·) = []
  · simp [hw]
  rw [if_neg hw]
  have hpos := List.length_pos_iff.mpr hw
  generalize hv : (s.dropWhile d).takeWhile (! d ·) = v at hw hpos ⊢
  by_cases hn : gap d s + v.length ≤ n
  · rw [List.take_of_length_le (by omega), if_neg hw]
    refine iff_of_true rfl ?_
    rintro w ⟨⟩
    exact hn
  · refine iff_of_false (fun h => ?_) fun h => hn (h v rfl)
    split at h
    · cases h
    · have hlen := congrArg List.length (Option.some.inj h)
      rw [List.length_take] at hlen
      omega

theorem word_take_of_le {d : Char → Bool} {s w : CStr} {n : Nat} (h : word d s = some w)
    (hn : gap d s + w.length ≤ n) : word d (s.take n) = some w := by
  rw [word_take_eq_iff.mpr ?_, h]
  rw [h]
  rintro v ⟨⟩
  exact hn

theorem word_take_of_none {d : Char → Bool} {s : CStr} (n : Nat) (h : word d s = none) :
    word d (s.take n) = none := by
  rw [word_take_eq_iff.mpr (by rw [h]; exact fun w hw => by cases hw), h]

/-- The first word of the first `n` characters is that of the text, or it is cut off there. -/
theorem word_take_cases {d : Char → Bool} {s w : CStr} {n : Nat} (h : word d (s.take n) = some w) :
    word d s = some w ∨ gap d s + w.length = n := by
  by_cases hend : word d (s.take n) = word d s
  · exact .inl (hend.symm.trans h)
  · refine .inr ?_
    rw [word_take_eq_iff] at hend
    unfold word at hend h
    simp only at hend h
    rw [dropWhile_take, ← List.take_takeWhile] at h
    split at hend
    · exact absurd (fun w hw => by cases hw) hend
    split at h
    · cases h
    · rename_i hne
      have hlt : n - gap d s ≠ 0 := fun h0 => hne (by rw [h0, List.take_zero])
      have hcut := mt (fun hle w hw => by cases hw; exact hle) hend
      rw [← Option.some.inj h, List.length_take]
      omega

/-- `sscanf` reads the first word. -/
theorem scanWord_word_eq {s : CStr} {n : Nat} (h : s.length ≤ n) :
    (scanWord n s).map (·.1) = word isspace s := by
  have hle : ((s.dropWhile isspace).takeWhile fun c => ! isspace c).length ≤ n :=
    (List.takeWhile_prefix _).length_le.trans ((List.dropWhile_suffix _).length_le.trans h)
  unfold scanWord word
  simp only
  rw [List.take_of_length_le hle]
  split <;> rfl

/-- The first token is the first word, the others those behind it. -/
theorem tokens_eq_word (d : Char → Bool) (s : CStr) :
    tokens d s = match word d s with
      | none => []
      | some w => w :: tokens d (s.drop (gap d s + w.length)) := by
  cases h : tokens d s with
  | nil =>
    have hnil : s.dropWhile d = [] := by
      by_contra hne
      obtain ⟨c, t, hct⟩ := List.exists_cons_of_ne_nil hne
      obtain ⟨n, hn⟩ : ∃ n, s.length = n + 1 := Nat.exists_eq_succ_of_ne_zero fun h0 => by
        rw [List.length_eq_zero_iff.mp h0] at hct
        cases hct
      unfold tokens at h
      rw [hn, tokensUpTo, strtok, hct] at h
      cases h
    unfold word
    rw [hnil]
    rfl
  | cons w ws =>
    obtain ⟨pre, post, rfl, hpre, hne, hw, hpost, hws⟩ := tokens_eq_cons h
    obtain ⟨c, t, rfl⟩ := List.exists_cons_of_ne_nil hne
    have hc := hw c List.mem_cons_self
    have htake : (pre ++ (c :: t) ++ post).takeWhile d = pre := by
      rw [List.append_assoc, List.takeWhile_append_of_pos hpre, List.cons_append,
        List.takeWhile_cons_of_neg (by simp [hc]), List.append_nil]
    have hdrop : (pre ++ (c :: t) ++ post).dropWhile d = (c :: t) ++ post := by
      rw [List.append_assoc, List.dropWhile_append_of_pos hpre, List.cons_append,
        List.dropWhile_cons_of_neg (by simp [hc])]
    have hword : ((c :: t) ++ post).takeWhile (! d ·) = c :: t := by
      rw [List.takeWhile_append_of_pos fun x hx => by simp [hw x hx]]
      cases post with
      | nil => simp
      | cons x post => rw [List.takeWhile_cons_of_neg (by simp [hpost x rfl]), List.append_nil]
    unfold word gap
    simp only [htake, hdrop, hword, if_neg hne]
    rw [← List.length_append, List.drop_left, hws]

/-! ## Lines -/

/-- The lines of a text whose first characters are `acc`, the last one first. A line ends at a
newline, which is not part of it, or with the text. -/
def linesFrom : List Char → List Char → List (List Char)
  | acc, [] => if acc = [] then [] else [acc.reverse]
  | acc, c :: t => if c = '\n' then acc.reverse :: linesFrom [] t else linesFrom (c :: acc) t

/-- The lines of a text. -/
def textLines (text : List Char) : List (List Char) := linesFrom [] text

/-- What was read of a line is part of it. -/
theorem exists_mem_linesFrom {acc : List Char} (h : acc ≠ []) (text : List Char) :
    ∃ l ∈ linesFrom acc text, acc.length ≤ l.length := by
  induction text generalizing acc with
  | nil =>
    refine ⟨acc.reverse, ?_, by simp⟩
    rw [linesFrom, if_neg h]
    exact List.mem_singleton_self _
  | cons c t ih =>
    rw [linesFrom]
    split
    · exact ⟨acc.reverse, List.mem_cons_self, by simp⟩
    · obtain ⟨l, hl, hle⟩ := ih (List.cons_ne_nil c acc)
      exact ⟨l, hl, Nat.le_of_succ_le hle⟩

theorem takeWhile_concat {α : Type} {p : α → Bool} {c : α} (hc : p c = false) (l : List α) :
    (l ++ [c]).takeWhile p = l.takeWhile p := by
  induction l with
  | nil => exact List.takeWhile_cons_of_neg (by simp [hc])
  | cons x l ih => rw [List.cons_append, List.takeWhile_cons, List.takeWhile_cons, ih]

/-- `chomp` takes the newline off. -/
theorem chomp_newline (l : List Char) : chomp (l ++ ['\n']) = chomp l := by
  unfold chomp cstr
  rw [List.takeWhile_takeWhile, List.takeWhile_takeWhile]
  exact takeWhile_concat (by decide) l

/-- **`fgets` reads the lines.** Lines that fit the buffer with their newline and the NUL are read
as they are. -/
theorem fgetsLines_chomp {size : Nat} {text : List Char}
    (h : ∀ l ∈ textLines text, l.length + 1 < size) :
    (fgetsLines size text).map chomp = (textLines text).map chomp := by
  have go : ∀ (text acc : List Char) (room : Nat), acc.length + room + 1 = size → 1 ≤ room →
      (∀ l ∈ linesFrom acc text, l.length + 1 < size) →
      (fgetsFrom size room acc text).map chomp = (linesFrom acc text).map chomp := by
    intro text
    induction text with
    | nil => exact fun acc room _ _ _ => rfl
    | cons c t ih =>
      intro acc room hroom hpos hfit
      rw [linesFrom] at hfit
      rw [fgetsFrom, linesFrom]
      by_cases hc : c = '\n'
      · rw [if_pos hc] at hfit
        have hrest := ih [] (size - 1) (by simp; omega) (by omega)
          fun l hl => hfit l (List.mem_cons_of_mem _ hl)
        rw [if_pos (.inl hc), if_pos hc, List.map_cons, List.map_cons, hrest, hc,
          List.reverse_cons, chomp_newline]
      · rw [if_neg hc] at hfit
        -- The line goes on, so there is room for its next character and the newline.
        obtain ⟨l, hl, hle⟩ := exists_mem_linesFrom (List.cons_ne_nil c acc) t
        have hlt := hfit l hl
        rw [List.length_cons] at hle
        rw [if_neg (not_or.mpr ⟨hc, by omega⟩), if_neg hc]
        exact ih (c :: acc) (room - 1) (by simp; omega) (by omega) hfit
  unfold fgetsLines textLines
  cases text with
  | nil => rfl
  | cons c t =>
    obtain ⟨l, hl⟩ : ∃ l, l ∈ textLines (c :: t) := by
      unfold textLines
      rw [linesFrom]
      split
      · exact ⟨_, List.mem_cons_self⟩
      · obtain ⟨l, hl, -⟩ := exists_mem_linesFrom (List.cons_ne_nil c []) t
        exact ⟨l, hl⟩
    have := h l hl
    exact go (c :: t) [] (size - 1) (by simp; omega) (by omega) h

end CoreCDTL
