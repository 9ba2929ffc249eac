import CoreCDTL.Lib.CString
import CoreCDTL.Lib.Loop

/-!
# Lines through a buffer

A loop that reads a text with `fgets` gets a line that does not fit its buffer in pieces.

* `piece room line k`: the `k`-th piece of a line, in a buffer with room for `room` characters.
* `readLoop step stop`: a loop that makes one step for each thing read, and may return in it. What
  happens around a step may depend on its number.
* `readLoop_fgets`: the loop does with a text what it does with its lines, when the first piece of a
  line is as good as the line and its other pieces do nothing.
-/

namespace CoreCDTL

/-! ## Pieces -/

/-- The `k`-th piece of a line. -/
def piece (room : Nat) (line : List Char) (k : Nat) : List Char := (line.drop (room * k)).take room

@[simp] theorem piece_zero (room : Nat) (line : List Char) : piece room line 0 = line.take room :=
  rfl

theorem piece_succ (room : Nat) (line : List Char) (k : Nat) :
    piece room line (k + 1) = piece room (line.drop room) k := by
  unfold piece
  rw [List.drop_drop, Nat.mul_succ, Nat.add_comm]

/-- Characters without a newline go to the buffer, as far as there is room. -/
theorem fgetsFrom_append {size room : Nat} {acc u : List Char} (t : List Char) (hu : '\n' ∉ u)
    (h : u.length < room) :
    fgetsFrom size room acc (u ++ t) = fgetsFrom size (room - u.length) (u.reverse ++ acc) t := by
  induction u generalizing acc room with
  | nil => rfl
  | cons c u ih =>
    rw [List.mem_cons, not_or] at hu
    rw [List.length_cons] at h
    have hgo : ¬ (c = '\n' ∨ room ≤ 1) := not_or.mpr ⟨fun e => hu.1 e.symm, by omega⟩
    rw [List.cons_append, fgetsFrom, if_neg hgo, ih hu.2 (by omega), List.length_cons,
      List.reverse_cons, List.append_assoc, List.singleton_append, Nat.sub_sub, Nat.add_comm 1]

section Fgets

variable {room : Nat} {u : List Char}

/-- A line that fits is read with its newline. -/
theorem fgetsLines_newline (t : List Char) (hu : '\n' ∉ u) (h : u.length < room) :
    fgetsLines (room + 1) (u ++ '\n' :: t) = (u ++ ['\n']) :: fgetsLines (room + 1) t := by
  unfold fgetsLines
  rw [Nat.add_sub_cancel, fgetsFrom_append _ hu h, fgetsFrom, if_pos (.inl rfl)]
  simp

/-- A buffer that is full before a newline. -/
theorem fgetsLines_full (t : List Char) (hu : '\n' ∉ u) (hroom : 0 < room) (h : room ≤ u.length) :
    fgetsLines (room + 1) (u ++ t) =
      u.take room :: fgetsLines (room + 1) (u.drop room ++ t) := by
  obtain ⟨v, c, hvc⟩ : ∃ v c, u.take room = v ++ [c] := by
    rcases List.eq_nil_or_concat (u.take room) with hnil | ⟨v, c, hvc⟩
    · have := List.length_take_of_le h
      rw [hnil, List.length_nil] at this
      omega
    · exact ⟨v, c, hvc.trans (List.concat_eq_append)⟩
  have hlen : v.length + 1 = room := by
    rw [← List.length_take_of_le h, hvc, List.length_append, List.length_singleton]
  have hv : '\n' ∉ v := fun hmem =>
    hu (List.mem_of_mem_take (hvc ▸ List.mem_append_left _ hmem))
  have hsplit : u ++ t = v ++ c :: (u.drop room ++ t) := by
    rw [← List.singleton_append, ← List.append_assoc v, ← hvc, ← List.append_assoc,
      List.take_append_drop]
  unfold fgetsLines
  rw [hsplit, Nat.add_sub_cancel, fgetsFrom_append _ hv (by omega), fgetsFrom,
    if_pos (.inr (by omega)), hvc]
  simp

/-- The last line, without a newline. -/
theorem fgetsLines_last (hu : '\n' ∉ u) (hne : u ≠ []) (h : u.length < room) :
    fgetsLines (room + 1) u = [u] := by
  have hread := @fgetsFrom_append (room + 1) room [] u [] hu h
  rw [List.append_nil] at hread
  unfold fgetsLines
  rw [Nat.add_sub_cancel, hread, fgetsFrom]
  simp [hne]

end Fgets

/-! ## Lines -/

theorem linesFrom_append {u : List Char} (acc t : List Char) (hu : '\n' ∉ u) :
    linesFrom acc (u ++ t) = linesFrom (u.reverse ++ acc) t := by
  induction u generalizing acc with
  | nil => rfl
  | cons c u ih =>
    rw [List.mem_cons, not_or] at hu
    rw [List.cons_append, linesFrom, if_neg (fun e => hu.1 e.symm), ih _ hu.2]
    simp

theorem textLines_newline {u : List Char} (t : List Char) (hu : '\n' ∉ u) :
    textLines (u ++ '\n' :: t) = u :: textLines t := by
  unfold textLines
  rw [linesFrom_append _ _ hu, linesFrom, if_pos rfl]
  simp

theorem textLines_last {u : List Char} (hu : '\n' ∉ u) (hne : u ≠ []) : textLines u = [u] := by
  have hread := @linesFrom_append u [] [] hu
  rw [List.append_nil] at hread
  unfold textLines
  rw [hread, linesFrom]
  simp [hne]

/-- A text is one line, or starts with one. -/
theorem text_cases (text : List Char) :
    '\n' ∉ text ∨ ∃ u t, '\n' ∉ u ∧ text = u ++ '\n' :: t := by
  by_cases h : '\n' ∈ text
  · obtain ⟨u, t, heq, hu⟩ := List.eq_append_cons_of_mem h
    exact .inr ⟨u, t, hu, heq⟩
  · exact .inl h

/-! ## Loops -/

section Loops

variable {σ ρ : Type}

/-- A loop over what is read, from the `n`-th step on. -/
def readLoop (step : Nat → List Char → σ → Round σ ρ) (stop : σ → ρ) :
    Nat → List (List Char) → σ → ρ
  | _, [], s => stop s
  | n, line :: rest, s =>
    match step n line s with
    | .next s' => readLoop step stop (n + 1) rest s'
    | .done r => r

/-- The number of the step that gets the first piece of the `i`-th line. -/
def firstRead (room : Nat) : List (List Char) → Nat → Nat
  | line :: lines, i + 1 => line.length / room + 1 + firstRead room lines i
  | _, _ => 0

variable {step : Nat → List Char → σ → Round σ ρ} {stop : σ → ρ}

/-- Only the steps from the `n`-th on count. -/
theorem readLoop_congr {step' : Nat → List Char → σ → Round σ ρ} {n m : Nat}
    (lines : List (List Char)) (s : σ) (h : ∀ k, step (n + k) = step' (m + k)) :
    readLoop step stop n lines s = readLoop step' stop m lines s := by
  induction lines generalizing n m s with
  | nil => rfl
  | cons line rest ih =>
    have hhead : step n = step' m := h 0
    have hrest : ∀ s', readLoop step stop (n + 1) rest s' = readLoop step' stop (m + 1) rest s' :=
      fun s' => ih s' fun k => by
        rw [Nat.add_assoc, Nat.add_assoc]
        exact h (1 + k)
    simp only [readLoop, hhead, hrest]

/-- The number of pieces of a line that does not fit. -/
theorem pieces_drop {room : Nat} {v : List Char} (hroom : 0 < room) (h : room ≤ v.length) :
    (v.drop room).length / room + 1 = v.length / room := by
  rw [List.length_drop, ← Nat.sub_add_cancel h, Nat.add_sub_cancel, Nat.add_div_right _ hroom]

variable {room : Nat} (hroom : 0 < room)

include hroom

/-- Pieces that do nothing, of the last line. -/
theorem readLoop_skip_last {v : List Char} (n : Nat) (s : σ) (hv : '\n' ∉ v)
    (hquiet : ∀ k n s, step n (piece room v k) s = .next s) :
    readLoop step stop n (fgetsLines (room + 1) v) s = stop s := by
  induction hlen : v.length using Nat.strong_induction_on generalizing v n with
  | _ l ih =>
    subst hlen
    have hfirst := hquiet 0 n s
    rw [piece_zero] at hfirst
    by_cases hnil : v = []
    · rw [hnil]
      rfl
    by_cases hfits : v.length < room
    · rw [List.take_of_length_le (Nat.le_of_lt hfits)] at hfirst
      rw [fgetsLines_last hv hnil hfits, readLoop, hfirst]
      rfl
    · have hle := Nat.le_of_not_lt hfits
      have hread := fgetsLines_full [] hv hroom hle
      rw [List.append_nil, List.append_nil] at hread
      rw [hread, readLoop, hfirst]
      exact ih (v.drop room).length (by rw [List.length_drop]; omega) (n + 1)
        (fun h => hv (List.mem_of_mem_drop h))
        (fun k => by rw [← piece_succ]; exact hquiet (k + 1)) rfl

/-- A last line whose first piece is as good as the line. -/
theorem readLoop_line_last {v : List Char} (n : Nat) (s : σ) (hv : '\n' ∉ v) (hne : v ≠ [])
    (hwhole : step n (v.take room) s = step n v s)
    (hquiet : ∀ k, 1 ≤ k → ∀ n s, step n (piece room v k) s = .next s) :
    readLoop step stop n (fgetsLines (room + 1) v) s = readLoop step stop n [v] s := by
  by_cases hfits : v.length < room
  · rw [fgetsLines_last hv hne hfits]
  · have hle := Nat.le_of_not_lt hfits
    have hread := fgetsLines_full [] hv hroom hle
    rw [List.append_nil, List.append_nil] at hread
    rw [hread, readLoop, readLoop, hwhole]
    cases step n v s with
    | done r => rfl
    | next s' =>
      exact readLoop_skip_last hroom (n + 1) s' (fun h => hv (List.mem_of_mem_drop h))
        (fun k => by rw [← piece_succ]; exact hquiet (k + 1) (Nat.le_add_left 1 k))

variable (hnew : ∀ n line s, step n (line ++ ['\n']) s = step n line s)

include hnew

/-- The same of a line that ends. -/
theorem readLoop_skip {v : List Char} (t : List Char) (n : Nat) (s : σ) (hv : '\n' ∉ v)
    (hquiet : ∀ k n s, step n (piece room v k) s = .next s) :
    readLoop step stop n (fgetsLines (room + 1) (v ++ '\n' :: t)) s =
      readLoop step stop (n + (v.length / room + 1)) (fgetsLines (room + 1) t) s := by
  induction hlen : v.length using Nat.strong_induction_on generalizing v n with
  | _ l ih =>
    subst hlen
    have hfirst := hquiet 0 n s
    rw [piece_zero] at hfirst
    by_cases hfits : v.length < room
    · rw [List.take_of_length_le (Nat.le_of_lt hfits)] at hfirst
      rw [fgetsLines_newline t hv hfits, readLoop, hnew, hfirst, Nat.div_eq_of_lt hfits]
    · have hle := Nat.le_of_not_lt hfits
      rw [fgetsLines_full _ hv hroom hle, readLoop, hfirst]
      simp only
      rw [ih (v.drop room).length (by rw [List.length_drop]; omega) (n + 1)
        (fun h => hv (List.mem_of_mem_drop h))
        (fun k => by rw [← piece_succ]; exact hquiet (k + 1)) rfl,
        pieces_drop hroom hle, Nat.add_assoc, Nat.add_comm 1]

/-- The same of a line that ends. -/
theorem readLoop_line {v : List Char} (t : List Char) (n : Nat) (s : σ) (hv : '\n' ∉ v)
    (hwhole : step n (v.take room) s = step n v s)
    (hquiet : ∀ k, 1 ≤ k → ∀ n s, step n (piece room v k) s = .next s) :
    readLoop step stop n (fgetsLines (room + 1) (v ++ '\n' :: t)) s =
      match step n v s with
      | .next s' => readLoop step stop (n + (v.length / room + 1)) (fgetsLines (room + 1) t) s'
      | .done r => r := by
  by_cases hfits : v.length < room
  · rw [fgetsLines_newline t hv hfits, readLoop, hnew, Nat.div_eq_of_lt hfits]
  · have hle := Nat.le_of_not_lt hfits
    rw [fgetsLines_full _ hv hroom hle, readLoop, hwhole]
    cases step n v s with
    | done r => rfl
    | next s' =>
      simp only
      rw [readLoop_skip hroom hnew t (n + 1) s' (fun h => hv (List.mem_of_mem_drop h))
        (fun k => by rw [← piece_succ]; exact hquiet (k + 1) (Nat.le_add_left 1 k)),
        pieces_drop hroom hle, Nat.add_assoc, Nat.add_comm 1]

/-- **A text read in pieces.** When the first piece of each line is as good as the line, and its
other pieces do nothing, the loop does what it does with the lines. -/
theorem readLoop_fgets {text : List Char} (n : Nat) (s : σ)
    (hwhole : ∀ line ∈ textLines text, ∀ n s, step n (line.take room) s = step n line s)
    (hquiet : ∀ line ∈ textLines text, ∀ k, 1 ≤ k → ∀ n s,
      step n (piece room line k) s = .next s) :
    readLoop step stop n (fgetsLines (room + 1) text) s =
      readLoop (fun i => step (n + firstRead room (textLines text) i)) stop 0 (textLines text) s := by
  induction hlen : text.length using Nat.strong_induction_on generalizing text n s with
  | _ l ih =>
    subst hlen
    rcases text_cases text with hv | ⟨v, t, hv, rfl⟩
    · by_cases hne : text = []
      · rw [hne]
        rfl
      · have hlines := textLines_last hv hne
        rw [hlines] at hwhole hquiet ⊢
        rw [readLoop_line_last hroom n s hv hne (hwhole _ List.mem_cons_self n s)
          (hquiet _ List.mem_cons_self), readLoop, readLoop]
        rfl
    · rw [textLines_newline t hv] at hwhole hquiet ⊢
      rw [readLoop_line hroom hnew t n s hv (hwhole v List.mem_cons_self n s)
        (hquiet v List.mem_cons_self), readLoop]
      have hfirst : n + firstRead room (v :: textLines t) 0 = n := rfl
      rw [hfirst]
      cases step n v s with
      | done r => rfl
      | next s' =>
        simp only
        rw [ih t.length (by simp; omega) (n + (v.length / room + 1)) s'
          (fun line hl => hwhole line (List.mem_cons_of_mem v hl))
          (fun line hl => hquiet line (List.mem_cons_of_mem v hl)) rfl]
        refine readLoop_congr _ s' fun k => ?_
        simp only [Nat.zero_add, Nat.add_comm 1 k, firstRead, Nat.add_assoc]

end Loops

end CoreCDTL
