import CoreCDTL.Lib.Machine

/-!
# Simulation between machines

`Simulates M N f g`: along the state map `f`, each step of `M` is the step of `N` that `g` gives for
its label, or leaves the state of `N` alone where `g` gives none.

* `Simulates.run`: so a run of `M` is a run of `N`, on the labels that `g` gives.
* `Simulates.reach`: and the reachable states of `M` are mapped to reachable ones.
-/

namespace CoreCDTL
namespace Machine

variable {σ α σ' α' : Type}

/-- A step of `M` is a step of `N` or none. -/
def Simulates (M : Machine σ α) (N : Machine σ' α') (f : σ → σ') (g : σ → α → Option α') : Prop :=
  ∀ s a t, M.step a s = some t →
    match g s a with
    | some b => N.step b (f s) = some (f t)
    | none => f t = f s

variable {M : Machine σ α} {N : Machine σ' α'} {f : σ → σ'} {g : σ → α → Option α'}

/-- A run of `M` ends where some run of `N` does. -/
theorem Simulates.run (h : M.Simulates N f g) {as : List α} {s t : σ} (hr : M.run as s = some t) :
    ∃ bs, N.run bs (f s) = some (f t) := by
  induction as generalizing s with
  | nil => cases hr; exact ⟨[], rfl⟩
  | cons a as ih =>
    obtain ⟨u, hu, hr⟩ := run_cons_some.mp hr
    obtain ⟨bs, hbs⟩ := ih hr
    have hstep := h s a u hu
    split at hstep
    · rename_i b _
      exact ⟨b :: bs, run_cons_some.mpr ⟨f u, hstep, hbs⟩⟩
    · exact ⟨bs, hstep ▸ hbs⟩

theorem Simulates.reach (h : M.Simulates N f g) {init : σ → Prop} {init' : σ' → Prop}
    (hi : ∀ s, init s → init' (f s)) {s : σ} (hs : M.Reach init s) : N.Reach init' (f s) := by
  obtain ⟨s₀, as, h₀, hr⟩ := hs
  obtain ⟨bs, hbs⟩ := h.run hr
  exact ⟨f s₀, bs, hi s₀ h₀, hbs⟩

end Machine
end CoreCDTL
