import CoreCDTL.Lib.Machine

/-!
# Progress of a machine

`Reaches M A Q s`: some run from `s` that takes only labels with `A` ends in a state with `Q`. With
`A` the labels of one thread this is what the thread can do alone.

* `here`, `step`, `trans`: how such runs are put together.
* `of_variant`: a variant that goes down with some allowed step until `Q` holds.
* `not_reaches`: a property that the allowed steps keep, and that excludes `Q`.
-/

namespace CoreCDTL
namespace Machine

variable {σ α : Type} {M : Machine σ α} {A : α → Prop} {P Q I : σ → Prop} {s t : σ}

/-- Some run of labels with `A` goes from `s` to a state with `Q`. -/
def Reaches (M : Machine σ α) (A : α → Prop) (Q : σ → Prop) (s : σ) : Prop :=
  ∃ as t, (∀ a ∈ as, A a) ∧ M.run as s = some t ∧ Q t

theorem Reaches.here (h : Q s) : M.Reaches A Q s :=
  ⟨[], s, nofun, rfl, h⟩

theorem Reaches.step {a : α} (ha : A a) (hs : M.step a s = some t) (h : M.Reaches A Q t) :
    M.Reaches A Q s := by
  obtain ⟨as, u, has, hr, hu⟩ := h
  refine ⟨a :: as, u, fun b hb => ?_, run_cons_some.mpr ⟨t, hs, hr⟩, hu⟩
  rcases List.mem_cons.mp hb with rfl | hb
  · exact ha
  · exact has b hb

/-- One run after the other. -/
theorem Reaches.trans (h : M.Reaches A P s) (hPQ : ∀ t, P t → M.Reaches A Q t) :
    M.Reaches A Q s := by
  obtain ⟨as, t, has, hr, ht⟩ := h
  obtain ⟨bs, u, hbs, hr', hu⟩ := hPQ t ht
  refine ⟨as ++ bs, u, fun a ha => ?_, run_trans hr hr', hu⟩
  rcases List.mem_append.mp ha with ha | ha
  · exact has a ha
  · exact hbs a ha

/-- **Progress.** While `Q` does not hold, some allowed step goes through, keeps `I` and lowers the
variant. -/
theorem Reaches.of_variant (μ : σ → Nat)
    (h : ∀ s, I s → ¬ Q s → ∃ a t, A a ∧ M.step a s = some t ∧ I t ∧ μ t < μ s) (hs : I s) :
    M.Reaches A Q s := by
  generalize hn : μ s = n
  induction n using Nat.strongRecOn generalizing s with
  | ind n ih =>
    by_cases hq : Q s
    · exact .here hq
    · obtain ⟨a, t, ha, hst, ht, hlt⟩ := h s hs hq
      exact .step ha hst (ih (μ t) (hn ▸ hlt) ht rfl)

/-- What the allowed steps keep bounds what they reach. -/
theorem not_reaches (hI : M.Keeps (fun _ a => A a) I) (hQ : ∀ t, I t → ¬ Q t) (hs : I s) :
    ¬ M.Reaches A Q s := by
  rintro ⟨as, t, has, hr, ht⟩
  exact hQ t (hI.run hs (Meets.of_mem (fun _ a ha => has a ha) s) hr) ht

end Machine
end CoreCDTL
