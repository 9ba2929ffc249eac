import CoreCDTL.Lib.Progress
import CoreCDTL.Lib.Sync
import Mathlib.Data.List.Nodup

/-!
# Threads that take locks in a fixed order

A thread's code is the list of the locks and unlocks it still performs. The threads of `system code`
call functions, whose lists `code` gives, in any order and any number of times. A long jump takes a
thread out of its code, with the locks that it holds, and into that of another function.

* `held rank h c`: the locks held after the code `c`, if every lock is taken below the ones that are
  held already, in the order of `rank`, and only held ones are released.
* `critical`, `released`, `Nested`, `Inside`: how code that takes its locks in order is put together.
* `Owned`: what each thread holds fits the rest of its code. Steps keep it, but for a jump from inside
  a critical section (`owned_keeps`).
* `Owned.progress`: while some thread has code left, some thread has a step. `Owned.finishes`: so all
  threads can come to the end of their code.
* `Torn`: a lock that no thread releases any more. It stays so (`torn_keeps`), and a thread whose code
  takes it does not come to its end (`Torn.not_finishes`).
* `finishes_iff`: the calls of a run can be finished, whatever is called after them, if and only if no
  jump of the run left a critical section.
-/

namespace CoreCDTL

/-- What a thread does to a lock. -/
inductive LockOp (κ : Type) where
  | lock (l : κ)
  | unlock (l : κ)
  deriving DecidableEq, Repr

namespace LockOrder

variable {ι κ γ : Type}

/-! ## Threads -/

/-- The code that each thread has left, and who holds each lock. -/
structure State (ι κ : Type) where
  code : ι → List (LockOp κ)
  owner : κ → Option ι

def init : State ι κ := ⟨fun _ => [], fun _ => none⟩

/-- A thread calls a function, goes on in its code, or jumps out of it into a function. -/
inductive Label (ι γ : Type) where
  | call (i : ι) (f : γ)
  | act (i : ι)
  | jump (i : ι) (f : γ)
  deriving DecidableEq, Repr

/-- A thread goes on in its code. -/
def Label.IsAct : Label ι γ → Prop
  | .act _ => True
  | _ => False

/-- The step is no jump. -/
def Label.NoJump : Label ι γ → Prop
  | .jump .. => False
  | _ => True

/-- A thread that jumps holds no lock. -/
def Clean (s : State ι κ) (a : Label ι γ) : Prop :=
  match a with
  | .jump i _ => ∀ l, s.owner l ≠ some i
  | _ => True

/-- Every thread has come to the end of its code. -/
def Done (s : State ι κ) : Prop := ∀ i, s.code i = []

theorem Label.IsAct.noJump {a : Label ι γ} (h : a.IsAct) : a.NoJump := by
  cases a with
  | jump => exact h
  | call => exact trivial
  | act => exact trivial

/-- A step that is no jump is clean. -/
theorem Label.NoJump.clean {a : Label ι γ} (h : a.NoJump) (s : State ι κ) : Clean s a := by
  cases a with
  | jump => exact h.elim
  | call => exact trivial
  | act => exact trivial

variable [DecidableEq κ]

/-! ## Code -/

/-- The locks held after some code, if it takes them in order. -/
def held (rank : κ → Nat) : List κ → List (LockOp κ) → Option (List κ)
  | h, [] => some h
  | h, .lock l :: c => if ∀ k ∈ h, rank k < rank l then held rank (l :: h) c else none
  | h, .unlock l :: c => if l ∈ h then held rank (h.erase l) c else none

/-- The code does not release `l` unless it takes it before. -/
def Fresh (l : κ) : List (LockOp κ) → Prop
  | [] => True
  | .lock k :: c => k = l ∨ Fresh l c
  | .unlock k :: c => k ≠ l ∧ Fresh l c

section Code

variable {rank : κ → Nat} {h h' : List κ} {c d : List (LockOp κ)} {l : κ}

theorem held_lock (hc : held rank h (.lock l :: c) = some h') :
    (∀ k ∈ h, rank k < rank l) ∧ held rank (l :: h) c = some h' :=
  Option.ite_none_right_eq_some.mp hc

theorem held_unlock (hc : held rank h (.unlock l :: c) = some h') :
    l ∈ h ∧ held rank (h.erase l) c = some h' :=
  Option.ite_none_right_eq_some.mp hc

theorem held_append (rank : κ → Nat) (h : List κ) (c d : List (LockOp κ)) :
    held rank h (c ++ d) = (held rank h c).bind fun h' => held rank h' d := by
  induction c generalizing h with
  | nil => rfl
  | cons op c ih =>
    cases op with
    | lock l =>
      simp only [List.cons_append, held]
      split
      · exact ih _
      · rfl
    | unlock l =>
      simp only [List.cons_append, held]
      split
      · exact ih _
      · rfl

theorem fresh_of_held (hc : held rank h c = some h') (hl : l ∉ h) : Fresh l c := by
  induction c generalizing h with
  | nil => trivial
  | cons op c ih =>
    cases op with
    | lock k =>
      obtain ⟨-, hc⟩ := held_lock hc
      by_cases hk : k = l
      · exact .inl hk
      · refine .inr (ih hc fun hm => ?_)
        rcases List.mem_cons.mp hm with he | hm
        · exact hk he.symm
        · exact hl hm
    | unlock k =>
      obtain ⟨hk, hc⟩ := held_unlock hc
      exact ⟨fun he => hl (he ▸ hk), ih hc fun hm => hl (List.mem_of_mem_erase hm)⟩

/-! ## How code is put together -/

/-- The lock `m` around some code. -/
def critical (m : κ) (c : List (LockOp κ)) : List (LockOp κ) := .lock m :: (c ++ [.unlock m])

/-- Some code of a critical section of `m` that runs with `m` released. -/
def released (m : κ) (c : List (LockOp κ)) : List (LockOp κ) := .unlock m :: (c ++ [.lock m])

/-- The code takes its locks in order from the rank `r` on, and releases them. -/
def Nested (rank : κ → Nat) (r : Nat) (c : List (LockOp κ)) : Prop :=
  ∀ h, (∀ k ∈ h, rank k < r) → held rank h c = some h

/-- The same of code in a critical section of `m`. -/
def Inside (rank : κ → Nat) (m : κ) (c : List (LockOp κ)) : Prop :=
  ∀ h, (∀ k ∈ h, rank k < rank m) → held rank (m :: h) c = some (m :: h)

theorem Nested.nil (r : Nat) : Nested rank r [] := fun _ _ => rfl

theorem Nested.append {r : Nat} (hc : Nested rank r c) (hd : Nested rank r d) :
    Nested rank r (c ++ d) := fun h hh => by
  rw [held_append, hc h hh]
  exact hd h hh

theorem Nested.mono {r r' : Nat} (hc : Nested rank r' c) (hr : r ≤ r') : Nested rank r c :=
  fun h hh => hc h fun k hk => Nat.lt_of_lt_of_le (hh k hk) hr

theorem Nested.held (hc : Nested rank 0 c) : LockOrder.held rank [] c = some [] :=
  hc [] nofun

theorem Nested.inside {m : κ} (hc : Nested rank (rank m + 1) c) : Inside rank m c := fun h hh => by
  refine hc (m :: h) fun k hk => ?_
  rcases List.mem_cons.mp hk with rfl | hk
  · exact Nat.lt_succ_self _
  · exact Nat.lt_succ_of_lt (hh k hk)

theorem Inside.append {m : κ} (hc : Inside rank m c) (hd : Inside rank m d) :
    Inside rank m (c ++ d) := fun h hh => by
  rw [held_append, hc h hh]
  exact hd h hh

theorem Inside.released {m : κ} (hc : Nested rank (rank m) c) : Inside rank m (released m c) :=
  fun h hh => by
    have hmem : m ∈ m :: h := List.mem_cons_self
    simp only [LockOrder.released, LockOrder.held, if_pos hmem, List.erase_cons_head]
    rw [held_append, hc h hh]
    exact if_pos hh

theorem Inside.critical {m : κ} {r : Nat} (hr : r ≤ rank m) (hc : Inside rank m c) :
    Nested rank r (critical m c) := fun h hh => by
  have hm : ∀ k ∈ h, rank k < rank m := fun k hk => Nat.lt_of_lt_of_le (hh k hk) hr
  have hmem : m ∈ m :: h := List.mem_cons_self
  simp only [LockOrder.critical, LockOrder.held, if_pos hm]
  rw [held_append, hc h hm]
  simp only [Option.bind_some, LockOrder.held, if_pos hmem, List.erase_cons_head]

end Code

/-! ## Threads that release what they hold -/

/-- The thread `i` with the code `c` left holds the locks `h`, and releases them in order. -/
structure Holds (rank : κ → Nat) (owner : κ → Option ι) (i : ι) (c : List (LockOp κ))
    (h : List κ) : Prop where
  rest : held rank h c = some []
  nodup : h.Nodup
  owner : ∀ l, l ∈ h ↔ owner l = some i

/-- Every thread releases what it holds. -/
def Owned (rank : κ → Nat) (s : State ι κ) : Prop :=
  ∀ i, ∃ h, Holds rank s.owner i (s.code i) h

section Holds

variable {rank : κ → Nat} {owner : κ → Option ι} {i j : ι} {l : κ} {c : List (LockOp κ)} {h : List κ}

theorem Holds.lock (hh : Holds rank owner i (.lock l :: c) h) (free : owner l = none) :
    Holds rank (Function.update owner l (some i)) i c (l :: h) := by
  have hl : l ∉ h := fun hl => by
    have := (hh.owner l).mp hl
    rw [free] at this
    cases this
  refine ⟨(held_lock hh.rest).2, List.nodup_cons.mpr ⟨hl, hh.nodup⟩, fun k => ?_⟩
  by_cases hk : k = l
  · subst hk
    simp
  · simp only [List.mem_cons, hk, false_or, Function.update_of_ne hk]
    exact hh.owner k

theorem Holds.unlock (hh : Holds rank owner i (.unlock l :: c) h) :
    Holds rank (Function.update owner l none) i c (h.erase l) := by
  refine ⟨(held_unlock hh.rest).2, hh.nodup.erase l, fun k => ?_⟩
  rw [hh.nodup.mem_erase_iff]
  by_cases hk : k = l
  · subst hk
    simp
  · simp only [ne_eq, hk, not_false_eq_true, true_and, Function.update_of_ne hk]
    exact hh.owner k

/-- Another thread takes or releases a lock. -/
theorem Holds.other (hh : Holds rank owner j c h) {o : Option ι} (before : owner l ≠ some j)
    (after : o ≠ some j) : Holds rank (Function.update owner l o) j c h := by
  refine ⟨hh.rest, hh.nodup, fun k => ?_⟩
  by_cases hk : k = l
  · subst hk
    rw [Function.update_self]
    exact ⟨fun hm => absurd ((hh.owner k).mp hm) before, fun he => absurd he after⟩
  · rw [Function.update_of_ne hk]
    exact hh.owner k

/-- A thread at the end of its code holds nothing. -/
theorem Holds.nil (hh : Holds rank owner i [] h) : h = [] := Option.some.inj hh.rest

end Holds

theorem owned_init {rank : κ → Nat} : Owned rank (init : State ι κ) := fun _ =>
  ⟨[], rfl, List.nodup_nil, fun _ => ⟨nofun, nofun⟩⟩

/-! ## The system -/

variable [DecidableEq ι]

def step (code : γ → List (LockOp κ)) (a : Label ι γ) (s : State ι κ) : Option (State ι κ) :=
  match a with
  | .call i f =>
    if s.code i = [] then some { s with code := Function.update s.code i (code f) } else none
  | .jump i f => some { s with code := Function.update s.code i (code f) }
  | .act i =>
    match s.code i with
    | [] => none
    | .lock l :: c =>
      if s.owner l = none then
        some ⟨Function.update s.code i c, Function.update s.owner l (some i)⟩
      else none
    | .unlock l :: c =>
      if s.owner l = some i then
        some ⟨Function.update s.code i c, Function.update s.owner l none⟩
      else none

/-- The threads as a machine. -/
def system (code : γ → List (LockOp κ)) : Machine (State ι κ) (Label ι γ) := ⟨step code⟩

/-- All threads can come to the end of their code. -/
def Finishes (code : γ → List (LockOp κ)) (s : State ι κ) : Prop :=
  (system code).Reaches Label.IsAct Done s

/-! ## What a step does -/

/-- What a step can do, with the tests it has passed. -/
inductive Turn (code : γ → List (LockOp κ)) (s : State ι κ) : Label ι γ → State ι κ → Prop where
  | call (i : ι) (f : γ) (idle : s.code i = []) :
    Turn code s (.call i f) { s with code := Function.update s.code i (code f) }
  | lock (i : ι) (l : κ) (c : List (LockOp κ)) (at_ : s.code i = .lock l :: c)
    (free : s.owner l = none) :
    Turn code s (.act i) ⟨Function.update s.code i c, Function.update s.owner l (some i)⟩
  | unlock (i : ι) (l : κ) (c : List (LockOp κ)) (at_ : s.code i = .unlock l :: c)
    (own : s.owner l = some i) :
    Turn code s (.act i) ⟨Function.update s.code i c, Function.update s.owner l none⟩
  | jump (i : ι) (f : γ) :
    Turn code s (.jump i f) { s with code := Function.update s.code i (code f) }

theorem step_turn {code : γ → List (LockOp κ)} {s t : State ι κ} {a : Label ι γ}
    (h : (system code).step a s = some t) : Turn code s a t := by
  cases a with
  | call i f =>
    obtain ⟨idle, he⟩ := Option.ite_none_right_eq_some.mp h
    cases he
    exact .call i f idle
  | jump i f =>
    cases h
    exact .jump i f
  | act i =>
    simp only [system, step] at h
    split at h
    · cases h
    · rename_i l c at_
      obtain ⟨free, he⟩ := Option.ite_none_right_eq_some.mp h
      cases he
      exact .lock i l c at_ free
    · rename_i l c at_
      obtain ⟨own, he⟩ := Option.ite_none_right_eq_some.mp h
      cases he
      exact .unlock i l c at_ own

theorem step_lock (code : γ → List (LockOp κ)) {s : State ι κ} {i : ι} {l : κ}
    {c : List (LockOp κ)} (at_ : s.code i = .lock l :: c) (free : s.owner l = none) :
    (system code).step (.act i) s =
      some ⟨Function.update s.code i c, Function.update s.owner l (some i)⟩ := by
  simp only [system, step, at_, if_pos free]

theorem step_unlock (code : γ → List (LockOp κ)) {s : State ι κ} {i : ι} {l : κ}
    {c : List (LockOp κ)} (at_ : s.code i = .unlock l :: c) (own : s.owner l = some i) :
    (system code).step (.act i) s =
      some ⟨Function.update s.code i c, Function.update s.owner l none⟩ := by
  simp only [system, step, at_, if_pos own]

section Owned

variable {code : γ → List (LockOp κ)} {rank : κ → Nat}

/-- A step of the thread `i`. -/
theorem Owned.update {s : State ι κ} (ho : Owned rank s) {i : ι} {c : List (LockOp κ)}
    {owner : κ → Option ι} (self : ∃ h, Holds rank owner i c h)
    (other : ∀ j h, j ≠ i → Holds rank s.owner j (s.code j) h → Holds rank owner j (s.code j) h) :
    Owned rank ⟨Function.update s.code i c, owner⟩ := by
  intro j
  show ∃ h, Holds rank owner j (Function.update s.code i c j) h
  by_cases hij : j = i
  · subst hij
    rw [Function.update_self]
    exact self
  · rw [Function.update_of_ne hij]
    obtain ⟨h, hh⟩ := ho j
    exact ⟨h, other j h hij hh⟩

/-- Steps other than a jump out of a critical section. -/
theorem owned_keeps (hcode : ∀ f, held rank [] (code f) = some []) :
    (system (ι := ι) code).Keeps Clean (Owned rank) := by
  intro s a t ho hclean hs
  cases step_turn hs with
  | call i f idle =>
    obtain ⟨h, hh⟩ := ho i
    rw [idle] at hh
    cases hh.nil
    exact ho.update ⟨[], hcode f, hh.nodup, hh.owner⟩ fun _ _ _ hj => hj
  | jump i f =>
    have hnone : ∀ l, l ∈ ([] : List κ) ↔ s.owner l = some i :=
      fun l => ⟨nofun, fun hl => absurd hl (hclean l)⟩
    exact ho.update ⟨[], hcode f, List.nodup_nil, hnone⟩ fun _ _ _ hj => hj
  | lock i l c at_ free =>
    obtain ⟨h, hh⟩ := ho i
    rw [at_] at hh
    refine ho.update ⟨l :: h, hh.lock free⟩ fun j g hij hj => hj.other ?_ ?_
    · rw [free]
      exact nofun
    · exact fun he => hij (Option.some.inj he).symm
  | unlock i l c at_ own =>
    obtain ⟨h, hh⟩ := ho i
    rw [at_] at hh
    refine ho.update ⟨h.erase l, hh.unlock⟩ fun j g hij hj => hj.other ?_ nofun
    rw [own]
    exact fun he => hij (Option.some.inj he).symm

/-- The rank of the lock that a thread takes next; 0 where it takes none. -/
def nextRank (rank : κ → Nat) : List (LockOp κ) → Nat
  | .lock l :: _ => rank l
  | _ => 0

/-- **Progress.** Of the threads that are blocked, the one that waits for the highest lock waits for a
thread that is not blocked. -/
theorem Owned.progress {n : Nat} (hrank : ∀ l, rank l ≤ n) {s : State ι κ} (ho : Owned rank s)
    {i : ι} (hi : s.code i ≠ []) : ∃ j t, (system code).step (.act j) s = some t := by
  induction hd : n - nextRank rank (s.code i) using Nat.strongRecOn generalizing i with
  | ind d ih =>
    obtain ⟨h, hh⟩ := ho i
    have hrest := hh.rest
    cases hc : s.code i with
    | nil => exact absurd hc hi
    | cons op c =>
      rw [hc] at hrest hd
      cases op with
      | unlock l =>
        have hown := (hh.owner l).mp (held_unlock hrest).1
        exact ⟨i, _, step_unlock code hc hown⟩
      | lock l =>
        cases hl : s.owner l with
        | none => exact ⟨i, _, step_lock code hc hl⟩
        | some j =>
          -- The owner has code left, and takes a higher lock next if it takes one.
          obtain ⟨g, hg⟩ := ho j
          have hmem : l ∈ g := (hg.owner l).mpr hl
          have hrestj := hg.rest
          cases hcj : s.code j with
          | nil =>
            rw [hcj] at hrestj
            rw [Option.some.inj hrestj] at hmem
            cases hmem
          | cons op' c' =>
            rw [hcj] at hrestj
            cases op' with
            | unlock k =>
              have hown := (hg.owner k).mp (held_unlock hrestj).1
              exact ⟨j, _, step_unlock code hcj hown⟩
            | lock k =>
              have hlt : rank l < rank k := (held_lock hrestj).1 l hmem
              have hle := hrank k
              refine ih (n - rank k) ?_ (i := j) (by rw [hcj]; exact nofun) (by rw [hcj]; rfl)
              rw [← hd]
              show n - rank k < n - rank l
              omega

variable [Fintype ι]

/-- A step of a thread in its code leaves less of it. -/
theorem act_shorter {s t : State ι κ} {i : ι} (h : (system code).step (.act i) s = some t) :
    ∑ j, (t.code j).length < ∑ j, (s.code j).length := by
  cases step_turn h with
  | lock _ l c at_ free =>
    have hsum := sum_update List.length s.code i c
    rw [at_, List.length_cons] at hsum
    show ∑ j, (Function.update s.code i c j).length < _
    omega
  | unlock _ l c at_ own =>
    have hsum := sum_update List.length s.code i c
    rw [at_, List.length_cons] at hsum
    show ∑ j, (Function.update s.code i c j).length < _
    omega

/-- **No deadlock**: all threads come to the end of their code. -/
theorem Owned.finishes (hcode : ∀ f, held rank [] (code f) = some []) {n : Nat}
    (hrank : ∀ l, rank l ≤ n) {s : State ι κ} (ho : Owned rank s) : Finishes code s := by
  refine Machine.Reaches.of_variant (I := Owned rank) (fun t => ∑ j, (t.code j).length)
    (fun t ht hdone => ?_) ho
  obtain ⟨i, hi⟩ := not_forall.mp hdone
  obtain ⟨j, u, hu⟩ : ∃ j u, (system code).step (.act j) t = some u := ht.progress hrank hi
  have hclean : Clean t (.act j : Label ι γ) := trivial
  exact ⟨.act j, u, trivial, hu, owned_keeps hcode t _ u ht hclean hu, act_shorter hu⟩

end Owned

section Torn

variable {code : γ → List (LockOp κ)} {rank : κ → Nat} {l : κ} {i : ι}

/-! ## A lock that nobody releases -/

/-- The thread `i` holds the lock `l`, and its code does not release it. -/
structure Torn (l : κ) (i : ι) (s : State ι κ) : Prop where
  owner : s.owner l = some i
  fresh : Fresh l (s.code i)

omit [DecidableEq κ] in
theorem Torn.update {s : State ι κ} (ht : Torn l i s) {j : ι} {c : List (LockOp κ)}
    {owner : κ → Option ι} (howner : owner l = some i) (hc : j = i → Fresh l c) :
    Torn l i ⟨Function.update s.code j c, owner⟩ := by
  refine ⟨howner, ?_⟩
  show Fresh l (Function.update s.code j c i)
  by_cases hij : i = j
  · subst hij
    rw [Function.update_self]
    exact hc rfl
  · rw [Function.update_of_ne hij]
    exact ht.fresh

theorem torn_keeps (hcode : ∀ f, held rank [] (code f) = some []) :
    (system code).Keeps (fun _ _ => True) (Torn l i) := by
  intro s a t ht _ hs
  have hfresh : ∀ f, Fresh l (code f) := fun f => fresh_of_held (hcode f) List.not_mem_nil
  cases step_turn hs with
  | call j f idle => exact ht.update ht.owner fun _ => hfresh f
  | jump j f => exact ht.update ht.owner fun _ => hfresh f
  | lock j k c at_ free =>
    have hk : k ≠ l := fun he => by
      rw [he, ht.owner] at free
      cases free
    refine ht.update ((Function.update_of_ne hk.symm _ _).trans ht.owner) fun he => ?_
    have hf := ht.fresh
    rw [← he, at_] at hf
    exact hf.resolve_left hk
  | unlock j k c at_ own =>
    by_cases he : j = i
    · have hf := ht.fresh
      rw [← he, at_] at hf
      exact ht.update ((Function.update_of_ne hf.1.symm _ _).trans ht.owner) fun _ => hf.2
    · have hk : k ≠ l := fun hk => by
        rw [hk, ht.owner] at own
        exact he (Option.some.inj own).symm
      exact ht.update ((Function.update_of_ne hk.symm _ _).trans ht.owner) fun h => absurd h he

/-- A thread whose code takes a torn lock does not get past it. -/
theorem Torn.not_finishes (hcode : ∀ f, held rank [] (code f) = some []) {s : State ι κ}
    (ht : Torn l i s) {j : ι} (hj : .lock l ∈ s.code j) : ¬ Finishes code s := by
  refine Machine.not_reaches (I := fun s => Torn l i s ∧ .lock l ∈ s.code j) ?_ ?_ ⟨ht, hj⟩
  · rintro s a t ⟨ht, hj⟩ ha hs
    refine ⟨torn_keeps hcode s a t ht trivial hs, ?_⟩
    cases step_turn hs with
    | call => exact ha.elim
    | jump => exact ha.elim
    | lock k m c at_ free =>
      show .lock l ∈ Function.update s.code k c j
      by_cases he : j = k
      · subst he
        rw [Function.update_self]
        rw [at_] at hj
        rcases List.mem_cons.mp hj with he | hj
        · cases he
          rw [ht.owner] at free
          cases free
        · exact hj
      · rwa [Function.update_of_ne he]
    | unlock k m c at_ own =>
      show .lock l ∈ Function.update s.code k c j
      by_cases he : j = k
      · subst he
        rw [Function.update_self]
        rw [at_] at hj
        exact (List.mem_cons.mp hj).resolve_left nofun
      · rwa [Function.update_of_ne he]
  · rintro s ⟨-, hj⟩ hdone
    rw [hdone j] at hj
    cases hj

/-- After a run with a jump out of a critical section some lock is torn. -/
theorem torn_of_not_meets (hcode : ∀ f, held rank [] (code f) = some []) {as : List (Label ι γ)}
    {s t : State ι κ} (hr : (system code).run as s = some t)
    (hm : ¬ (system code).Meets Clean as s) : ∃ l i, Torn l i t := by
  induction as generalizing s with
  | nil => exact absurd trivial hm
  | cons a as ih =>
    obtain ⟨u, hs, hr⟩ := Machine.run_cons_some.mp hr
    by_cases hclean : Clean s a
    · refine ih hr fun hmu => hm ⟨hclean, fun v hv => ?_⟩
      rw [hs] at hv
      cases hv
      exact hmu
    · cases step_turn hs with
      | call => exact absurd trivial hclean
      | lock => exact absurd trivial hclean
      | unlock => exact absurd trivial hclean
      | jump i f =>
        obtain ⟨l, hl⟩ := not_forall.mp hclean
        have hu : Torn l i { s with code := Function.update s.code i (code f) } := by
          refine ⟨not_not.mp hl, ?_⟩
          show Fresh l (Function.update s.code i (code f) i)
          rw [Function.update_self]
          exact fresh_of_held (hcode f) List.not_mem_nil
        exact ⟨l, i, (torn_keeps hcode).run_all hu hr⟩

/-- **Deadlock freedom.** Where every function takes its locks in order and releases them, and every
lock is taken by some function: after a run all calls can be finished, whatever is called next, if
and only if no jump of the run left a critical section. -/
theorem finishes_iff [Fintype ι] (hcode : ∀ f, held rank [] (code f) = some [])
    (huses : ∀ l, ∃ f, .lock l ∈ code f) {n : Nat} (hrank : ∀ l, rank l ≤ n)
    {as : List (Label ι γ)} {s : State ι κ} (hr : (system code).run as init = some s) :
    (system code).Meets Clean as init ↔
      ∀ bs t, (∀ b ∈ bs, b.NoJump) → (system code).run bs s = some t → Finishes code t := by
  constructor
  · intro hm bs t hbs ht
    have hs : Owned rank s := (owned_keeps hcode).run owned_init hm hr
    have hclean := Machine.Meets.of_mem (M := system code)
      (fun u b hb => (hbs b hb).clean u) s
    exact ((owned_keeps hcode).run hs hclean ht).finishes hcode hrank
  · intro hfin
    by_contra hm
    obtain ⟨l, i, ht⟩ := torn_of_not_meets hcode hr hm
    obtain ⟨bs, u, hbs, hu, hdone⟩ := hfin [] s nofun rfl
    obtain ⟨f, hf⟩ := huses l
    -- A thread that calls a function with the lock afterwards never returns.
    have hcall : (system code).step (.call i f) u =
        some { u with code := Function.update u.code i (code f) } := if_pos (hdone i)
    have htu : Torn l i u := (torn_keeps hcode).run_all ht hu
    have htv := torn_keeps hcode _ _ _ htu trivial hcall
    refine htv.not_finishes hcode (j := i) ?_ (hfin (bs ++ [.call i f]) _ (fun b hb => ?_)
      (Machine.run_trans hu (Machine.run_cons_some.mpr ⟨_, hcall, rfl⟩)))
    · show .lock l ∈ Function.update u.code i (code f) i
      rw [Function.update_self]
      exact hf
    · rcases List.mem_append.mp hb with hb | hb
      · exact (hbs b hb).noJump
      · rw [List.mem_singleton.mp hb]
        exact trivial

end Torn

end LockOrder
end CoreCDTL
