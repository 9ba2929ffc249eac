import Mathlib.Logic.Basic

/-!
# `while (1)` loops

A loop is its body: from a state, a round goes on in another state or returns.

* `iterate body n s`: the result, if the loop returns within `n` rounds.
* `Returns body s r`: the loop returns `r`. It returns one value at most (`Returns.unique`).
* `returns_of_variant`: the rule for total correctness, `Returns.post` the one for partial
  correctness, `not_returns` the one for a loop that never ends.
-/

namespace CoreCDTL

/-- What a round does. -/
inductive Round (σ ρ : Type) where
  | next (s : σ)
  | done (r : ρ)
  deriving DecidableEq, Repr

namespace Loop

variable {σ ρ : Type} {body : σ → Round σ ρ}

/-- The result after at most `n` rounds. -/
def iterate (body : σ → Round σ ρ) : Nat → σ → Option ρ
  | 0, _ => none
  | n + 1, s =>
    match body s with
    | .next t => iterate body n t
    | .done r => some r

/-- The loop returns `r`. -/
def Returns (body : σ → Round σ ρ) (s : σ) (r : ρ) : Prop := ∃ n, iterate body n s = some r

theorem returns_done {s : σ} {r q : ρ} (h : body s = .done r) : Returns body s q ↔ q = r := by
  constructor
  · rintro ⟨n, hn⟩
    cases n with
    | zero => cases hn
    | succ n =>
      rw [iterate, h] at hn
      exact (Option.some.inj hn).symm
  · rintro rfl
    exact ⟨1, by rw [iterate, h]⟩

theorem returns_next {s t : σ} {q : ρ} (h : body s = .next t) :
    Returns body s q ↔ Returns body t q := by
  constructor
  · rintro ⟨n, hn⟩
    cases n with
    | zero => cases hn
    | succ n =>
      rw [iterate, h] at hn
      exact ⟨n, hn⟩
  · rintro ⟨n, hn⟩
    exact ⟨n + 1, by rw [iterate, h]; exact hn⟩

/-- **Partial correctness.** -/
theorem Returns.post {I : σ → Prop} {Q : ρ → Prop}
    (hnext : ∀ s t, I s → body s = .next t → I t) (hdone : ∀ s r, I s → body s = .done r → Q r)
    {s : σ} {r : ρ} (hs : I s) (h : Returns body s r) : Q r := by
  obtain ⟨n, hn⟩ := h
  induction n generalizing s with
  | zero => cases hn
  | succ n ih =>
    rw [iterate] at hn
    cases hb : body s with
    | next t => rw [hb] at hn; exact ih (hnext s t hs hb) hn
    | done q => rw [hb] at hn; cases hn; exact hdone s r hs hb

theorem Returns.unique {s : σ} {r q : ρ} (h : Returns body s r) (h' : Returns body s q) :
    r = q := by
  refine (h'.post (I := fun t => Returns body t r) (Q := fun q => r = q) ?_ ?_ h)
  · exact fun s t hs hb => (returns_next hb).mp hs
  · exact fun s q hs hb => (returns_done hb).mp hs

/-- **Total correctness.** Each round from a state with `I` returns, or goes on with `I` in a state
of a smaller measure. -/
theorem returns_of_variant {I : σ → Prop} {Q : ρ → Prop} (μ : σ → Nat)
    (h : ∀ s, I s → (∃ r, body s = .done r ∧ Q r) ∨ ∃ t, body s = .next t ∧ I t ∧ μ t < μ s) {s : σ}
    (hs : I s) : ∃ r, Returns body s r ∧ Q r := by
  induction hn : μ s using Nat.strongRecOn generalizing s with
  | ind n ih =>
    rcases h s hs with ⟨r, hb, hq⟩ | ⟨t, hb, ht, hlt⟩
    · exact ⟨r, (returns_done hb).mpr rfl, hq⟩
    · obtain ⟨r, hr, hq⟩ := ih (μ t) (hn ▸ hlt) ht rfl
      exact ⟨r, (returns_next hb).mpr hr, hq⟩

/-- **A loop that never ends.** -/
theorem not_returns {I : σ → Prop} (h : ∀ s, I s → ∃ t, body s = .next t ∧ I t) {s : σ}
    (hs : I s) (r : ρ) : ¬ Returns body s r := by
  intro hr
  refine hr.post (I := I) (Q := fun _ => False) ?_ ?_ hs
  · intro s t hs hb
    obtain ⟨t', hb', ht⟩ := h s hs
    cases hb'.symm.trans hb
    exact ht
  · intro s r hs hb
    obtain ⟨t', hb', -⟩ := h s hs
    cases hb'.symm.trans hb

end Loop

end CoreCDTL
