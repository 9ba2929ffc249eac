import Mathlib.Data.List.Basic

/-!
# Machines, their runs and the rules for them

A `Machine` is a partial step function on states. A label says who takes the step and resolves
every choice of the step (a clock reading, the result of an allocation, which waiter a signal
wakes), so the machine is executable and a schedule is a list of labels.

* `run as s`: the state after the labels `as`, if each of them was enabled in its turn.
* `Meets G as s`: every step of the run meets the condition `G` on the state before the step and
  its label. `Meets G` with `G` false on some labels says that the run never takes them.
* `Keeps G I`: steps that meet `G` keep `I`. `Keeps.run` is the induction over a run.
* `Keeps.meets`: a kept property that excludes some labels excludes them from every later step.
* `withHistory f`: the machine with a history variable, for conditions on what a run did before.
-/

namespace CoreCDTL

/-- A labelled machine: the step of a label from a state, if it is enabled there. -/
structure Machine (σ α : Type) where
  step : α → σ → Option σ

namespace Machine

variable {σ α : Type} (M : Machine σ α)

/-- The state after the labels `as`, if each is enabled in its turn. -/
def run : List α → σ → Option σ
  | [], s => some s
  | a :: as, s => (M.step a s).bind (run as)

/-- The label `a` can be taken in `s`. -/
def Enabled (a : α) (s : σ) : Prop := ∃ s', M.step a s = some s'

/-- Every step of the run of `as` from `s` meets `G`. -/
def Meets (G : σ → α → Prop) : List α → σ → Prop
  | [], _ => True
  | a :: as, s => G s a ∧ ∀ s', M.step a s = some s' → Meets G as s'

/-- The steps that meet `G` keep `I`. -/
def Keeps (G : σ → α → Prop) (I : σ → Prop) : Prop :=
  ∀ s a s', I s → G s a → M.step a s = some s' → I s'

/-- The states that some run reaches from a state with `init`. -/
def Reach (init : σ → Prop) (s : σ) : Prop := ∃ s₀ as, init s₀ ∧ M.run as s₀ = some s

variable {M}

@[simp] theorem run_nil (s : σ) : M.run [] s = some s := rfl

theorem run_cons_some {a : α} {as : List α} {s s' : σ} :
    M.run (a :: as) s = some s' ↔ ∃ t, M.step a s = some t ∧ M.run as t = some s' :=
  Option.bind_eq_some_iff

theorem run_append (as bs : List α) (s : σ) :
    M.run (as ++ bs) s = (M.run as s).bind (M.run bs) := by
  induction as generalizing s with
  | nil => rfl
  | cons a as ih =>
    simp only [List.cons_append, run, Option.bind_assoc]
    congr 1
    funext t
    exact ih t

theorem run_trans {as bs : List α} {s t u : σ} (h₁ : M.run as s = some t)
    (h₂ : M.run bs t = some u) : M.run (as ++ bs) s = some u := by
  rw [run_append, h₁]; exact h₂

instance Meets.decidable {G : σ → α → Prop} [∀ s a, Decidable (G s a)] :
    (as : List α) → (s : σ) → Decidable (M.Meets G as s)
  | [], _ => isTrue trivial
  | a :: as, s =>
    have : ∀ t, Decidable (M.Meets G as t) := Meets.decidable as
    inferInstanceAs (Decidable (G s a ∧ ∀ t, t ∈ M.step a s → M.Meets G as t))

theorem Meets.of_mem {G : σ → α → Prop} {as : List α} (h : ∀ s, ∀ a ∈ as, G s a) (s : σ) :
    M.Meets G as s := by
  induction as generalizing s with
  | nil => trivial
  | cons a as ih =>
    exact ⟨h s a List.mem_cons_self, fun t _ => ih (fun s b hb => h s b (List.mem_cons_of_mem a hb)) t⟩

theorem Meets.of_forall {G : σ → α → Prop} (h : ∀ s a, G s a) (as : List α) (s : σ) :
    M.Meets G as s :=
  of_mem (fun s a _ => h s a) s

theorem Meets.cons {G : σ → α → Prop} {a : α} {as : List α} {s t : σ} (hG : G s a)
    (hs : M.step a s = some t) (h : M.Meets G as t) : M.Meets G (a :: as) s :=
  ⟨hG, fun u hu => by cases hs.symm.trans hu; exact h⟩

theorem Meets.and {G H : σ → α → Prop} {as : List α} {s : σ} (h₁ : M.Meets G as s)
    (h₂ : M.Meets H as s) : M.Meets (fun s a => G s a ∧ H s a) as s := by
  induction as generalizing s with
  | nil => trivial
  | cons a as ih => exact ⟨⟨h₁.1, h₂.1⟩, fun t ht => ih (h₁.2 t ht) (h₂.2 t ht)⟩

theorem Meets.initial {G : σ → α → Prop} {as bs : List α} {s : σ} (h : M.Meets G (as ++ bs) s) :
    M.Meets G as s := by
  induction as generalizing s with
  | nil => trivial
  | cons a as ih => exact ⟨h.1, fun t ht => ih (h.2 t ht)⟩

theorem Keeps.mono {G H : σ → α → Prop} {I : σ → Prop} (h : M.Keeps H I)
    (hGH : ∀ s a, G s a → H s a) : M.Keeps G I :=
  fun s a s' hI hG => h s a s' hI (hGH s a hG)

/-- **Induction over a run.** What the steps keep holds after a run of such steps. -/
theorem Keeps.run {G : σ → α → Prop} {I : σ → Prop} (h : M.Keeps G I) {as : List α} {s s' : σ}
    (hI : I s) (hm : M.Meets G as s) (hr : M.run as s = some s') : I s' := by
  induction as generalizing s with
  | nil => cases hr; exact hI
  | cons a as ih =>
    obtain ⟨t, ha, hr⟩ := run_cons_some.mp hr
    exact ih (h s a t hI hm.1 ha) (hm.2 t ha) hr

/-- What every step keeps holds after every run. -/
theorem Keeps.run_all {I : σ → Prop} (h : M.Keeps (fun _ _ => True) I) {as : List α} {s s' : σ}
    (hI : I s) (hr : M.run as s = some s') : I s' :=
  h.run hI (Meets.of_forall (fun _ _ => trivial) as s) hr

/-- Where every label is enabled in a state with `I` and leads to one, every run goes through. -/
theorem run_total {I : σ → Prop} (h : ∀ s a, I s → ∃ s', M.step a s = some s' ∧ I s')
    (as : List α) {s : σ} (hI : I s) : ∃ s', M.run as s = some s' ∧ I s' := by
  induction as generalizing s with
  | nil => exact ⟨s, rfl, hI⟩
  | cons a as ih =>
    obtain ⟨t, ha, ht⟩ := h s a hI
    obtain ⟨s', hr, hs'⟩ := ih ht
    exact ⟨s', run_cons_some.mpr ⟨t, ha, hr⟩, hs'⟩

/-- A kept property that implies `H` of each next step gives `H` of every step of a run. -/
theorem Keeps.meets {G H : σ → α → Prop} {I : σ → Prop} (h : M.Keeps G I)
    (hH : ∀ s a, I s → G s a → H s a) {as : List α} {s : σ} (hI : I s) (hm : M.Meets G as s) :
    M.Meets H as s := by
  induction as generalizing s with
  | nil => trivial
  | cons a as ih => exact ⟨hH s a hI hm.1, fun t ht => ih (h s a t hI hm.1 ht) (hm.2 t ht)⟩

/-- **A property lost at the first bad step.** If each step ends with `P` exactly when `P` held
before it and the step meets `G`, a run ends with `P` exactly when all its steps meet `G`. -/
theorem iff_meets {G : σ → α → Prop} {I P : σ → Prop} (hI : M.Keeps (fun _ _ => True) I)
    (hP : ∀ s a s', I s → M.step a s = some s' → (P s' ↔ P s ∧ G s a)) {as : List α} {s s' : σ}
    (hs : I s) (hr : M.run as s = some s') : P s' ↔ P s ∧ M.Meets G as s := by
  induction as generalizing s with
  | nil => cases hr; exact ⟨fun h => ⟨h, trivial⟩, fun h => h.1⟩
  | cons a as ih =>
    obtain ⟨t, ha, hr⟩ := run_cons_some.mp hr
    have hmeets : M.Meets G (a :: as) s ↔ G s a ∧ M.Meets G as t := by
      refine ⟨fun h => ⟨h.1, h.2 t ha⟩, fun h => ⟨h.1, fun u hu => ?_⟩⟩
      rw [ha] at hu
      cases hu
      exact h.2
    rw [ih (hI s a t hs trivial ha) hr, hP s a t hs ha, hmeets, and_assoc]

/-- If a step that meets `H` and ends with `P` meets `G`, a run that meets `H` and has only states
with `P` meets `G`. -/
theorem meets_of_prefixes {G H : σ → α → Prop} {I P : σ → Prop}
    (hI : M.Keeps (fun s a => H s a ∧ G s a) I)
    (hG : ∀ s a, I s → H s a → (∀ s', M.step a s = some s' → P s') → G s a) {as : List α} {s : σ}
    (hs : I s) (hm : M.Meets H as s) (hP : ∀ bs t, bs <+: as → M.run bs s = some t → P t) :
    M.Meets G as s := by
  induction as generalizing s with
  | nil => trivial
  | cons a as ih =>
    have step : ∀ {s' bs t}, M.step a s = some s' → bs <+: as → M.run bs s' = some t → P t :=
      fun hs' hbs ht => hP _ _ ((List.prefix_cons_inj a).mpr hbs) (run_cons_some.mpr ⟨_, hs', ht⟩)
    have hg : G s a := hG s a hs hm.1 fun s' hs' => step hs' List.nil_prefix rfl
    exact ⟨hg, fun s' hs' =>
      ih (hI s a s' hs ⟨hm.1, hg⟩ hs') (hm.2 s' hs') fun bs t => step hs'⟩

/-- **A property of every state of a run.** If, where `P` holds, a step keeps it exactly when it
meets `G`, then `P` holds after every prefix of a run exactly when the run meets `G`. -/
theorem prefixes_iff_meets {G H : σ → α → Prop} {I P : σ → Prop} (hI : M.Keeps H I)
    (hP : ∀ s a s', I s → H s a → P s → M.step a s = some s' → (P s' ↔ G s a)) {as : List α}
    {s u : σ} (hs : I s) (hm : M.Meets H as s) (h₀ : P s) (hr : M.run as s = some u) :
    (∀ bs t, bs <+: as → M.run bs s = some t → P t) ↔ M.Meets G as s := by
  induction as generalizing s with
  | nil =>
    refine iff_of_true (fun bs t hbs ht => ?_) trivial
    rw [List.prefix_nil.mp hbs] at ht
    cases ht
    exact h₀
  | cons a as ih =>
    obtain ⟨t, ha, hr⟩ := run_cons_some.mp hr
    have hstep := hP s a t hs hm.1 h₀ ha
    have hrest := fun h₁ : P t => ih (hI s a t hs hm.1 ha) (hm.2 t ha) h₁ hr
    constructor
    · intro h
      have ht : P t := h [a] t ⟨as, rfl⟩ (run_cons_some.mpr ⟨t, ha, rfl⟩)
      refine ⟨hstep.mp ht, fun t' ht' => ?_⟩
      cases ha.symm.trans ht'
      exact (hrest ht).mp fun bs v hbs hv =>
        h (a :: bs) v ((List.prefix_cons_inj a).mpr hbs) (run_cons_some.mpr ⟨t, ha, hv⟩)
    · intro h bs v hbs hv
      cases bs with
      | nil => cases hv; exact h₀
      | cons b bs =>
        obtain ⟨rfl, hpre⟩ := List.cons_prefix_cons.mp hbs
        obtain ⟨t', ht', hv⟩ := run_cons_some.mp hv
        cases ha.symm.trans ht'
        exact (hrest (hstep.mpr h.1)).mpr (h.2 t ha) bs v hpre hv

/-- **A run that stays good.** If, from a state with `I`, a step goes through and ends with `P`
exactly when it meets `G`, then a sequence of labels goes through with `P` after each of them
exactly when it meets `G`. -/
theorem runs_iff_meets {G : σ → α → Prop} {I P : σ → Prop} (hI : M.Keeps G I)
    (hP : ∀ s a, I s → ((∃ s', M.step a s = some s' ∧ P s') ↔ G s a)) {as : List α} {s : σ}
    (hs : I s) (h₀ : P s) :
    (∀ bs, bs <+: as → ∃ t, M.run bs s = some t ∧ P t) ↔ M.Meets G as s := by
  induction as generalizing s with
  | nil =>
    refine iff_of_true (fun bs hbs => ?_) trivial
    rw [List.prefix_nil.mp hbs]
    exact ⟨s, rfl, h₀⟩
  | cons a as ih =>
    constructor
    · intro h
      obtain ⟨u, hu, hp⟩ := h [a] ⟨as, rfl⟩
      obtain ⟨t, ha, hr⟩ := run_cons_some.mp hu
      cases hr
      have hg : G s a := (hP s a hs).mp ⟨u, ha, hp⟩
      refine ⟨hg, fun t ht => ?_⟩
      rw [ha] at ht
      cases ht
      refine (ih (hI s a u hs hg ha) hp).mp fun bs hbs => ?_
      obtain ⟨v, hv, hpv⟩ := h (a :: bs) ((List.prefix_cons_inj a).mpr hbs)
      obtain ⟨t, ha', hr⟩ := run_cons_some.mp hv
      rw [ha] at ha'
      cases ha'
      exact ⟨v, hr, hpv⟩
    · intro h bs hbs
      obtain ⟨t, ha, hp⟩ := (hP s a hs).mpr h.1
      cases bs with
      | nil => exact ⟨s, rfl, h₀⟩
      | cons b bs =>
        obtain ⟨rfl, hpre⟩ := List.cons_prefix_cons.mp hbs
        obtain ⟨v, hv, hpv⟩ := (ih (hI s b t hs h.1 ha) hp).mpr (h.2 t ha) bs hpre
        exact ⟨v, run_cons_some.mpr ⟨t, ha, hv⟩, hpv⟩

/-- A condition on the labels alone holds of every label of a run that meets it. -/
theorem Meets.mem {Q : α → Prop} {as : List α} {s u : σ} (h : M.Meets (fun _ a => Q a) as s)
    (hr : M.run as s = some u) : ∀ a ∈ as, Q a := by
  induction as generalizing s with
  | nil => exact fun a ha => nomatch ha
  | cons b as ih =>
    obtain ⟨t, hb, hr⟩ := run_cons_some.mp hr
    intro a ha
    rcases List.mem_cons.mp ha with rfl | ha
    · exact h.1
    · exact ih (h.2 t hb) hr a ha

/-- A condition that a run meets, step by step. -/
theorem meets_iff_steps {Q : σ → α → Prop} {as : List α} {s : σ} :
    M.Meets Q as s ↔ ∀ bs a t, bs ++ [a] <+: as → M.run bs s = some t → Q t a := by
  induction as generalizing s with
  | nil =>
    refine iff_of_true trivial fun bs a t h => ?_
    exact absurd (List.prefix_nil.mp h) (by simp)
  | cons b as ih =>
    constructor
    · rintro ⟨hb, hm⟩ bs a t hbs hr
      cases bs with
      | nil =>
        obtain ⟨rfl, -⟩ := List.cons_prefix_cons.mp hbs
        cases hr
        exact hb
      | cons c bs =>
        obtain ⟨rfl, hpre⟩ := List.cons_prefix_cons.mp hbs
        obtain ⟨u, hu, hr⟩ := run_cons_some.mp hr
        exact ih.mp (hm u hu) bs a t hpre hr
    · intro h
      refine ⟨h [] b s ⟨as, rfl⟩ rfl, fun u hu => ih.mpr fun bs a t hbs hr => ?_⟩
      exact h (b :: bs) a t ((List.prefix_cons_inj b).mpr hbs) (run_cons_some.mpr ⟨u, hu, hr⟩)

/-- Where the invariant makes two conditions on the next step the same, a run that meets one of
them meets the other. It is enough that the steps with the second one keep it. -/
theorem Keeps.meets_iff {G Q : σ → α → Prop} {I : σ → Prop} (h : M.Keeps G I)
    (hQ : ∀ s a, I s → (Q s a ↔ G s a)) {as : List α} {s : σ} (hI : I s) :
    M.Meets Q as s ↔ M.Meets G as s := by
  induction as generalizing s with
  | nil => exact Iff.rfl
  | cons a as ih =>
    refine and_congr_right_iff.mpr (fun hq => ?_) |>.trans (and_congr_left' (hQ s a hI))
    exact forall₂_congr fun t ht => ih (h s a t hI ((hQ s a hI).mp hq) ht)

/-! ## History variables -/

/-- The machine with a history variable beside its state. The step neither reads it nor fails
because of it. -/
def withHistory {γ : Type} (M : Machine σ α) (f : α → σ → γ → γ) : Machine (σ × γ) α where
  step a x := (M.step a x.1).map fun s => (s, f a x.1 x.2)

theorem withHistory_step {γ : Type} {f : α → σ → γ → γ} {a : α} {x y : σ × γ} :
    (M.withHistory f).step a x = some y ↔ M.step a x.1 = some y.1 ∧ y.2 = f a x.1 x.2 := by
  unfold withHistory
  rw [Option.map_eq_some_iff]
  constructor
  · rintro ⟨s, hs, rfl⟩
    exact ⟨hs, rfl⟩
  · rintro ⟨hs, hy⟩
    exact ⟨y.1, hs, by rw [← hy]⟩

/-- A condition that does not look at the history is met with it and without it. -/
theorem withHistory_meets {γ : Type} {f : α → σ → γ → γ} {G : σ → α → Prop} {as : List α} {s : σ}
    {g : γ} : (M.withHistory f).Meets (fun x a => G x.1 a) as (s, g) ↔ M.Meets G as s := by
  induction as generalizing s g with
  | nil => exact Iff.rfl
  | cons a as ih =>
    refine and_congr_right fun _ => ⟨fun h t ht => ?_, fun h y hy => ?_⟩
    · exact ih.mp (h (t, f a s g) (withHistory_step.mpr ⟨ht, rfl⟩))
    · obtain ⟨t, g'⟩ := y
      exact ih.mpr (h t (withHistory_step.mp hy).1)

/-- An invariant of the initial states that every step keeps holds of every reachable state. -/
theorem Keeps.reach {I : σ → Prop} (h : M.Keeps (fun _ _ => True) I) {init : σ → Prop}
    (h₀ : ∀ s, init s → I s) {s : σ} (hs : M.Reach init s) : I s := by
  obtain ⟨s₀, as, hi, hr⟩ := hs
  exact h.run_all (h₀ s₀ hi) hr

end Machine

end CoreCDTL
