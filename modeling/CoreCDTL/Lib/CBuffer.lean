import CoreCDTL.Lib.CString

/-!
# C strings in buffers of a fixed size

A buffer is a list of characters of a fixed length, with anything in it. The functions of
`string.h` that write to one fault (`none`) where they would read or write past its end.

* `put buf k s`: the characters `s` at position `k`.
* `snprintfTo`, `strcat`, `strncat`: the buffer afterwards.
* `snprintf_eq_iff`, `flatten_map_eq_iff`: when nothing is cut off a text, and off a sequence of them.
* `Holds n s buf`: a buffer of `n` bytes holds the C string `s`. Each function keeps it, as long as
  the text and its NUL fit.
* `appendLine`: the append that stops at the end of the buffer. A loop of them leaves the whole
  text, cut off at `n - 1` characters (`Holds.appendLines`).
-/

namespace CoreCDTL

/-- `s` written at position `k`. -/
def put (buf : List Char) (k : Nat) (s : List Char) : Option (List Char) :=
  if k + s.length ≤ buf.length then some (buf.take k ++ s ++ buf.drop (k + s.length)) else none

/-- `strlen(buf)`. -/
def strlen (buf : List Char) : Option Nat := if nul ∈ buf then some (cstr buf).length else none

/-- `snprintf(buf, size, ..)` for the formatted characters `text`. -/
def snprintfTo (buf : List Char) (size : Nat) (text : List Char) : Option (List Char) :=
  if size = 0 then some buf else put buf 0 (text.take (size - 1) ++ [nul])

/-- `strcat(buf, s)`. -/
def strcat (buf : List Char) (s : CStr) : Option (List Char) :=
  (strlen buf).bind fun k => put buf k (s ++ [nul])

/-- `strncat(buf, s, n)`. -/
def strncat (buf : List Char) (s : CStr) (n : Nat) : Option (List Char) :=
  (strlen buf).bind fun k => put buf k (s.take n ++ [nul])

/-- A buffer of `n` bytes with the C string `s` in it. -/
structure Holds (n : Nat) (s : CStr) (buf : List Char) : Prop where
  size : buf.length = n
  term : nul ∈ buf
  text : cstr buf = s

/-- What stands in front of the first NUL. -/
theorem cstr_append_nul (s rest : List Char) : cstr (s ++ nul :: rest) = cstr s := by
  induction s with
  | nil => rfl
  | cons c s ih =>
    unfold cstr at ih ⊢
    rw [List.cons_append, List.takeWhile_cons, List.takeWhile_cons, ih]

theorem cstr_append {s : List Char} (hs : nul ∉ s) (rest : List Char) :
    cstr (s ++ nul :: rest) = s := (cstr_append_nul s rest).trans (cstr_eq_self hs)

theorem prefix_cstr (buf : List Char) : cstr buf <+: buf := List.takeWhile_prefix _

/-- The C string and its NUL lie in the buffer. -/
theorem cstr_length_lt {buf : List Char} (h : nul ∈ buf) : (cstr buf).length < buf.length := by
  induction buf with
  | nil => cases h
  | cons c buf ih =>
    unfold cstr at ih ⊢
    by_cases hc : c = nul
    · rw [List.takeWhile_cons_of_neg (by simp [hc])]
      exact Nat.succ_pos _
    · rw [List.takeWhile_cons_of_pos (by simp [hc])]
      exact Nat.succ_lt_succ (ih ((List.mem_cons.mp h).resolve_left (Ne.symm hc)))

/-! ## Texts that are cut -/

theorem snprintf_isPrefix (size : Nat) (t : List Char) : snprintf size t <+: t :=
  (prefix_cstr _).trans (List.take_prefix _ _)

/-- `snprintf` gives the formatted characters exactly when they have no NUL and there is room. -/
theorem snprintf_eq_iff {size : Nat} {t : List Char} (hsize : 0 < size) :
    snprintf size t = t ↔ nul ∉ t ∧ t.length < size := by
  constructor
  · intro heq
    refine ⟨?_, heq ▸ snprintf_length_lt hsize t⟩
    rw [← heq]
    exact nul_not_mem_cstr _
  · rintro ⟨hn, hl⟩
    exact snprintf_eq_self hn hl

/-- Pieces that are beginnings of others make a text that is not longer. -/
theorem flatten_filterMap_length_le {α β : Type} {l : List β} {p q : β → Option (List α)}
    (h : ∀ b ∈ l, Option.Rel (· <+: ·) (p b) (q b)) :
    (l.filterMap p).flatten.length ≤ (l.filterMap q).flatten.length := by
  induction l with
  | nil => exact Nat.le_refl _
  | cons b l ih =>
    have hl := ih fun c hc => h c (List.mem_cons_of_mem b hc)
    have hb := h b List.mem_cons_self
    rcases hp : p b with _ | t <;> rcases hq : q b with _ | w <;> rw [hp, hq] at hb
    · rwa [List.filterMap_cons_none hp, List.filterMap_cons_none hq]
    · cases hb
    · cases hb
    · cases hb with
      | some hpre =>
        rw [List.filterMap_cons_some hp, List.filterMap_cons_some hq, List.flatten_cons,
          List.flatten_cons, List.length_append, List.length_append]
        exact Nat.add_le_add hpre.length_le hl

/-- Pieces that are beginnings of others make the same text only if each is all of the other. -/
theorem flatten_filterMap_eq_iff {α β : Type} {l : List β} {p q : β → Option (List α)}
    (h : ∀ b ∈ l, Option.Rel (· <+: ·) (p b) (q b)) :
    (l.filterMap p).flatten = (l.filterMap q).flatten ↔ ∀ b ∈ l, p b = q b := by
  induction l with
  | nil => simp
  | cons b l ih =>
    have hrest : ∀ c ∈ l, Option.Rel (· <+: ·) (p c) (q c) :=
      fun c hc => h c (List.mem_cons_of_mem b hc)
    have hb := h b List.mem_cons_self
    refine Iff.trans ?_ ((and_congr_right fun _ => ih hrest).trans List.forall_mem_cons.symm)
    rcases hp : p b with _ | t <;> rcases hq : q b with _ | w <;> rw [hp, hq] at hb
    · rw [List.filterMap_cons_none hp, List.filterMap_cons_none hq]
      exact (and_iff_right rfl).symm
    · cases hb
    · cases hb
    · cases hb with
      | some hpre =>
        rw [List.filterMap_cons_some hp, List.filterMap_cons_some hq, List.flatten_cons,
          List.flatten_cons, Option.some.injEq]
        constructor
        · intro heq
          -- Neither part is longer than its counterpart, so the cut is at the same place.
          have hsum := congrArg List.length heq
          rw [List.length_append, List.length_append] at hsum
          have h₁ := hpre.length_le
          have h₂ := flatten_filterMap_length_le hrest
          exact List.append_inj heq (by omega)
        · rintro ⟨rfl, htail⟩
          rw [htail]

/-- Lines that are beginnings of others. -/
theorem flatten_map_length_le {α β : Type} {l : List β} {p q : β → List α}
    (h : ∀ b ∈ l, p b <+: q b) : (l.map p).flatten.length ≤ (l.map q).flatten.length := by
  have hle := @flatten_filterMap_length_le α β l (some ∘ p) (some ∘ q) fun b hb => .some (h b hb)
  simpa using hle

/-- Lines that are beginnings of others make the same text only if each is all of the other. -/
theorem flatten_map_eq_iff {α β : Type} {l : List β} {p q : β → List α}
    (h : ∀ b ∈ l, p b <+: q b) :
    (l.map p).flatten = (l.map q).flatten ↔ ∀ b ∈ l, p b = q b := by
  have hiff := @flatten_filterMap_eq_iff α β l (some ∘ p) (some ∘ q) fun b hb => .some (h b hb)
  simpa using hiff

namespace Holds

variable {n : Nat} {s : CStr} {buf : List Char}

theorem length_lt (h : Holds n s buf) : s.length < n := by
  rw [← h.text, ← h.size]
  exact cstr_length_lt h.term

theorem nul_not_mem (h : Holds n s buf) : nul ∉ s := by
  rw [← h.text]
  exact nul_not_mem_cstr buf

theorem strlen_eq (h : Holds n s buf) : strlen buf = some s.length := by
  unfold strlen
  rw [if_pos h.term, h.text]

/-- A text written at the start of the buffer. -/
theorem put_zero (hsize : buf.length = n) {t : List Char} (hfit : t.length < n) :
    ∃ buf', put buf 0 (t ++ [nul]) = some buf' ∧ Holds n (cstr t) buf' := by
  have hlen : (t ++ [nul]).length = t.length + 1 := List.length_append
  refine ⟨t ++ nul :: buf.drop (t.length + 1), ?_, ?_, by simp, cstr_append_nul t _⟩
  · unfold put
    rw [if_pos (by rw [hlen]; omega)]
    simp
  · simp only [List.length_append, List.length_cons, List.length_drop]
    omega

/-- `buf[0] = '\0'`. -/
theorem put_nul (hsize : buf.length = n) (hpos : 0 < n) :
    ∃ buf', put buf 0 [nul] = some buf' ∧ Holds n [] buf' :=
  put_zero (t := []) hsize hpos

/-- A text written behind the string in the buffer. -/
theorem put_end (h : Holds n s buf) {t : List Char} (ht : nul ∉ t) (hfit : s.length + t.length < n) :
    ∃ buf', put buf s.length (t ++ [nul]) = some buf' ∧ Holds n (s ++ t) buf' := by
  have hlen : (t ++ [nul]).length = t.length + 1 := List.length_append
  have hsize := h.size
  have hs : buf.take s.length = s := by
    rw [← h.text]
    exact (List.prefix_iff_eq_take.mp (prefix_cstr buf)).symm
  have hnot : nul ∉ s ++ t := by
    rw [List.mem_append]
    exact not_or.mpr ⟨h.nul_not_mem, ht⟩
  refine ⟨s ++ t ++ nul :: buf.drop (s.length + (t.length + 1)), ?_, ?_, by simp,
    cstr_append hnot _⟩
  · unfold put
    rw [if_pos (by rw [hlen]; omega), hs, hlen]
    simp
  · simp only [List.length_append, List.length_cons, List.length_drop]
    omega

theorem snprintfTo (hsize : buf.length = n) (hpos : 0 < n) (text : List Char) :
    ∃ buf', snprintfTo buf n text = some buf' ∧ Holds n (snprintf n text) buf' := by
  unfold CoreCDTL.snprintfTo
  rw [if_neg (by omega)]
  apply put_zero hsize
  have := List.length_take_le (n - 1) text
  omega

theorem strcat (h : Holds n s buf) {t : CStr} (ht : nul ∉ t) (hfit : s.length + t.length < n) :
    ∃ buf', strcat buf t = some buf' ∧ Holds n (s ++ t) buf' := by
  unfold CoreCDTL.strcat
  rw [h.strlen_eq]
  exact h.put_end ht hfit

theorem strncat (h : Holds n s buf) {t : CStr} (ht : nul ∉ t) {k : Nat} (hk : s.length + k < n) :
    ∃ buf', strncat buf t k = some buf' ∧ Holds n (s ++ t.take k) buf' := by
  unfold CoreCDTL.strncat
  rw [h.strlen_eq]
  apply h.put_end fun hm => ht (List.mem_of_mem_take hm)
  have := List.length_take_le k t
  omega

end Holds

/-- `temp` appended to the text in `buf`, as far as there is room. The text is shorter than `size`,
so the subtraction does not wrap. -/
def appendLine (size : Nat) (buf : List Char) (temp : CStr) : Option (List Char) :=
  (strlen buf).bind fun currentLen =>
    let remaining := size - currentLen - 1
    if remaining > 0 then strncat buf temp remaining else some buf

namespace Holds

variable {n : Nat} {s : CStr} {buf : List Char}

theorem appendLine (h : Holds n s buf) {t : CStr} (ht : nul ∉ t) :
    ∃ buf', appendLine n buf t = some buf' ∧ Holds n (s ++ t.take (n - s.length - 1)) buf' := by
  have hlt := h.length_lt
  unfold CoreCDTL.appendLine
  rw [h.strlen_eq]
  simp only [Option.bind_some]
  split
  · exact h.strncat ht (by omega)
  · refine ⟨buf, rfl, ?_⟩
    rwa [show n - s.length - 1 = 0 by omega, List.take_zero, List.append_nil]

/-- A loop of appends leaves the whole text, cut off where the buffer ends. -/
theorem appendLines {s : List Char} {lines : List CStr} (h : Holds n (s.take (n - 1)) buf)
    (hl : ∀ t ∈ lines, nul ∉ t) :
    ∃ buf', lines.foldlM (CoreCDTL.appendLine n) buf = some buf' ∧
      Holds n ((s ++ lines.flatten).take (n - 1)) buf' := by
  induction lines generalizing s buf with
  | nil => exact ⟨buf, rfl, by simpa using h⟩
  | cons t lines ih =>
    obtain ⟨buf₁, h₁, hb₁⟩ := h.appendLine (hl t List.mem_cons_self)
    have htext : s.take (n - 1) ++ t.take (n - (s.take (n - 1)).length - 1) =
        (s ++ t).take (n - 1) := by
      rw [List.take_append, List.length_take]
      congr 2
      omega
    rw [htext] at hb₁
    obtain ⟨buf₂, h₂, hb₂⟩ := ih hb₁ fun u hu => hl u (List.mem_cons_of_mem t hu)
    refine ⟨buf₂, ?_, ?_⟩
    · rw [List.foldlM_cons, h₁]
      exact h₂
    · rwa [List.flatten_cons, ← List.append_assoc]

end Holds

end CoreCDTL
