import CoreCDTL.Log.CriticalErrors
import Mathlib.Data.List.Nodup

/-!
# The critical-error queue: when no message is lost

The slots `j` and `j + 32` share a bit. If a producer fills slot `j ≤ 30` after the consumer's scan
has passed it and before the scan is past `j + 32`, the scan finds the bit set at `j + 32`, where
there is no message, and clears it: the message stays in slot `j` with its bit clear.

* `Doomed`: these slots. `SafeStore`: the step does not fill one.
* `Inv`: the invariant of the runs without such a step; the consumer never gets past slot 31 with
  something to take (`nextUsed_lt`).
* `Inv.noLoss`: each stored message was delivered once, or is in the consumer's hand or in a slot
  whose bit is set.
* `noLoss_iff`: a run loses no message, now or when the consumer goes on, if and only if none of
  its steps fills a doomed slot.
-/

namespace CoreCDTL
namespace Log

/-- The slot that the consumer's scan tests next. -/
def Pc.next : Pc → Option Nat
  | .top => none
  | .writing i _ => some i
  | .relock i => some i

/-- The message in the consumer's hand. -/
def Pc.hand : Pc → Option Nat
  | .writing _ msg => msg
  | _ => none

/-- The scan has passed the slot `j` and will test `j + 32`. -/
def State.Doomed (s : State) (j : Nat) : Prop :=
  ∃ p, s.pc.next = some p ∧ j < p ∧ p ≤ j + 32 ∧ j ≤ 30

/-- The step does not fill a doomed slot. -/
def SafeStore (s : State) (a : Label) : Prop :=
  match a with
  | .addEventBus .. | .addScheduler .. => ∀ j, freeSlot s.bitmap = some j → ¬ s.Doomed j
  | .consume | .connect _ => True

/-- The message is in a slot whose bit is set, below the slots that share their bit with one that
the scan tests before. -/
def State.Pending (s : State) (n : Nat) : Prop :=
  ∃ i, i < 32 ∧ s.queues i = some n ∧ isUsed s.bitmap i = true

/-- **No message is lost**: each stored message was handed to the file writer exactly once, or was
not yet, and is in the consumer's hand or in a slot whose bit is set. -/
def NoLoss (s : State) : Prop :=
  ∀ n, n < s.stored.length →
    (s.delivered.count n = 1 ∧ s.pc.hand ≠ some n ∧ ¬ s.Pending n) ∨
      (s.delivered.count n = 0 ∧ (s.pc.hand = some n ∨ s.Pending n))

/-! ## The searches -/

theorem isUsed_congr {b : BitVec 32} {i j : Nat} (h : i % 32 = j % 32) :
    isUsed b i = isUsed b j := by
  rw [isUsed_eq, isUsed_eq, h]

/-- A producer's slot is one of the first 32, and its bit is clear. -/
theorem freeSlot_some {b : BitVec 32} {i : Nat} (h : freeSlot b = some i) :
    i < 32 ∧ isUsed b i = false := by
  obtain ⟨h₁, -, h₃⟩ := List.find?_range_eq_some.mp h
  refine ⟨?_, by simpa using h₁⟩
  by_contra hge
  have hlt : i % 32 < i := by omega
  have h₄ := h₃ _ hlt
  rw [isUsed_congr (Nat.mod_mod i 32)] at h₄
  simp_all

/-- The slot that the scan finds is used, and those before it are not. -/
theorem nextUsed_some {b : BitVec 32} {p i : Nat} (h : nextUsed b p = some i) :
    p ≤ i ∧ i < 63 ∧ isUsed b i = true ∧ ∀ k, p ≤ k → k < i → isUsed b k = false := by
  obtain ⟨h₁, h₂, h₃⟩ := List.find?_range'_eq_some.mp h
  rw [List.mem_range'_1] at h₂
  unfold MAX_CRITICAL_ERROR_QUEUE_SIZE at h₂
  refine ⟨h₂.1, by omega, h₁, fun k hpk hki => ?_⟩
  simpa using h₃ k hpk hki

/-- The scan finds something if a slot ahead is used. -/
theorem nextUsed_exists {b : BitVec 32} {p k : Nat} (hk : isUsed b k = true) (hp : p ≤ k)
    (hlt : k < 63) : ∃ i, nextUsed b p = some i ∧ i ≤ k := by
  cases h : nextUsed b p with
  | none =>
    have := List.find?_range'_eq_none.mp h k hp (by unfold MAX_CRITICAL_ERROR_QUEUE_SIZE; omega)
    simp [hk] at this
  | some i =>
    refine ⟨i, rfl, ?_⟩
    obtain ⟨-, -, -, h₄⟩ := nextUsed_some h
    by_contra hik
    rw [h₄ k hp (by omega)] at hk
    cases hk

/-! ## The invariant -/

/-- What holds after a run that fills no doomed slot. -/
structure Inv (s : State) : Prop where
  bits : ∀ j, j < 32 → (isUsed s.bitmap j = true ↔ ∃ n, s.queues j = some n)
  high : ∀ i, 32 ≤ i → s.queues i = none
  passed : ∀ j, s.Doomed j → isUsed s.bitmap j = false
  slotFresh : ∀ i n, s.queues i = some n →
    n < s.stored.length ∧ n ∉ s.delivered ∧ s.pc.hand ≠ some n
  slotInj : ∀ i j n, s.queues i = some n → s.queues j = some n → i = j
  handFresh : ∀ n, s.pc.hand = some n → n < s.stored.length ∧ n ∉ s.delivered
  nodup : s.delivered.Nodup
  deliveredLt : ∀ n ∈ s.delivered, n < s.stored.length
  kept : ∀ n, n < s.stored.length →
    n ∈ s.delivered ∨ s.pc.hand = some n ∨ ∃ j, s.queues j = some n

/-- A slot with a message is one of the first 32, and its bit is set. -/
theorem Inv.slot {s : State} (hi : Inv s) {j n : Nat} (h : s.queues j = some n) :
    j < 32 ∧ isUsed s.bitmap j = true := by
  have hj : j < 32 := by
    by_contra hge
    rw [hi.high j (by omega)] at h
    cases h
  exact ⟨hj, (hi.bits j hj).mpr ⟨n, h⟩⟩

theorem Inv.noLoss {s : State} (hi : Inv s) : NoLoss s := by
  intro n hn
  by_cases hd : n ∈ s.delivered
  · refine .inl ⟨List.count_eq_one_of_mem hi.nodup hd, fun hh => (hi.handFresh n hh).2 hd, ?_⟩
    rintro ⟨i, -, hq, -⟩
    exact (hi.slotFresh i n hq).2.1 hd
  · refine .inr ⟨List.count_eq_zero_of_not_mem hd, ?_⟩
    rcases hi.kept n hn with h | h | ⟨j, hj⟩
    · exact absurd h hd
    · exact .inl h
    · exact .inr ⟨j, (hi.slot hj).1, hj, (hi.slot hj).2⟩

theorem inv_init (c : Bool) : Inv (init c) where
  bits := by
    intro j _
    simp [init, isUsed]
  high := fun _ _ => rfl
  passed := fun j _ => by simp [init, isUsed]
  slotFresh := fun _ _ h => nomatch h
  slotInj := fun _ _ _ h => nomatch h
  handFresh := fun _ h => nomatch h
  nodup := List.nodup_nil
  deliveredLt := fun _ h => nomatch h
  kept := fun _ h => absurd h (Nat.not_lt_zero _)

/-- A producer that fills no doomed slot keeps the invariant. -/
theorem Inv.addCriticalError {s : State} (hi : Inv s) {text : CStr}
    (hsafe : ∀ j, freeSlot s.bitmap = some j → ¬ s.Doomed j) :
    Inv (addCriticalError text s) := by
  unfold Log.addCriticalError
  cases hf : freeSlot s.bitmap with
  | none => exact hi
  | some slot =>
    obtain ⟨hlt, hfree⟩ := freeSlot_some hf
    have hempty : s.queues slot = none := by
      cases hq : s.queues slot with
      | none => rfl
      | some n => rw [(hi.slot hq).2] at hfree; cases hfree
    have hq : ∀ i n, Function.update s.queues slot (some s.stored.length) i = some n →
        i = slot ∧ n = s.stored.length ∨ i ≠ slot ∧ s.queues i = some n :=
      fun i n => update_some_eq_some.mp
    refine ⟨?_, ?_, ?_, ?_, ?_, ?_, hi.nodup, ?_, ?_⟩
    · intro j hj
      show isUsed (markSlotUsed s.bitmap slot) j = true ↔
        ∃ n, Function.update s.queues slot (some s.stored.length) j = some n
      rw [isUsed_mark_low _ hlt hj, Bool.or_eq_true, decide_eq_true_iff, hi.bits j hj]
      by_cases he : j = slot
      · simp [he]
      · simp [he]
    · intro i hge
      have hne : i ≠ slot := by omega
      exact (Function.update_of_ne hne _ _).trans (hi.high i hge)
    · intro j hj
      have hjs : j ≠ slot := fun he => hsafe slot hf (he ▸ hj)
      have hjlt : j < 32 := by obtain ⟨_, -, -, -, h⟩ := hj; omega
      show isUsed (markSlotUsed s.bitmap slot) j = false
      rw [isUsed_mark_low _ hlt hjlt, hi.passed j hj, Bool.false_or, decide_eq_false_iff_not]
      exact hjs
    · intro i n h
      simp only [List.length_append, List.length_singleton]
      rcases hq i n h with ⟨-, rfl⟩ | ⟨-, h⟩
      · refine ⟨Nat.lt_succ_self _, fun hd => ?_, fun hh => ?_⟩
        · exact Nat.lt_irrefl _ (hi.deliveredLt _ hd)
        · exact Nat.lt_irrefl _ (hi.handFresh _ hh).1
      · obtain ⟨h₁, h₂⟩ := hi.slotFresh i n h
        exact ⟨by omega, h₂⟩
    · intro i j n h₁ h₂
      rcases hq i n h₁ with ⟨hi₁, hn₁⟩ | ⟨-, h₃⟩ <;> rcases hq j n h₂ with ⟨hj₁, hn₂⟩ | ⟨-, h₄⟩
      · exact hi₁.trans hj₁.symm
      · exact absurd (hn₁ ▸ (hi.slotFresh j n h₄).1) (Nat.lt_irrefl _)
      · exact absurd (hn₂ ▸ (hi.slotFresh i n h₃).1) (Nat.lt_irrefl _)
      · exact hi.slotInj i j n h₃ h₄
    · intro n h
      obtain ⟨h₁, h₂⟩ := hi.handFresh n h
      simp only [List.length_append, List.length_singleton]
      exact ⟨by omega, h₂⟩
    · intro n h
      have := hi.deliveredLt n h
      simp only [List.length_append, List.length_singleton]
      omega
    · intro n hn
      simp only [List.length_append, List.length_singleton] at hn
      by_cases he : n = s.stored.length
      · exact .inr (.inr ⟨slot, by simp [he]⟩)
      · rcases hi.kept n (by omega) with h | h | ⟨j, hj⟩
        · exact .inl h
        · exact .inr (.inl h)
        · refine .inr (.inr ⟨j, ?_⟩)
          have hne : j ≠ slot := by rintro rfl; rw [hempty] at hj; cases hj
          exact (Function.update_of_ne hne _ _).trans hj

/-- The scan takes something from the first 32 slots only: behind them it is past the slot with
the same bit, and that slot's bit is clear. -/
theorem nextUsed_lt {b : BitVec 32} {p i : Nat} (h : nextUsed b p = some i)
    (hpass : ∀ j, j < p → p ≤ j + 32 → j ≤ 30 → isUsed b j = false) : i < 32 := by
  obtain ⟨hpi, hi63, hused, hclear⟩ := nextUsed_some h
  by_contra hge
  have hsame : isUsed b (i - 32) = true := by
    rw [← hused]; exact isUsed_congr (by omega)
  by_cases hlt : i - 32 < p
  · rw [hpass (i - 32) hlt (by omega) (by omega)] at hsame
    cases hsame
  · rw [hclear (i - 32) (by omega) (by omega)] at hsame
    cases hsame

/-- The consumer's scan keeps the invariant. -/
theorem Inv.scanFrom {s : State} (hi : Inv s) {p : Nat} (hh : s.pc.hand = none)
    (hpass : ∀ j, j < p → p ≤ j + 32 → j ≤ 30 → isUsed s.bitmap j = false) :
    Inv (scanFrom p s) := by
  unfold Log.scanFrom
  cases hn : nextUsed s.bitmap p with
  | none =>
    exact { hi with
      passed := fun j ⟨_, h, _⟩ => nomatch h
      slotFresh := fun i n h => ⟨(hi.slotFresh i n h).1, (hi.slotFresh i n h).2.1, nofun⟩
      handFresh := fun n h => nomatch h
      kept := fun n h => by
        rcases hi.kept n h with h | h | h
        · exact .inl h
        · rw [hh] at h; cases h
        · exact .inr (.inr h) }
  | some i =>
    have hi32 := nextUsed_lt hn hpass
    obtain ⟨hpi, -, hused, hclear⟩ := nextUsed_some hn
    obtain ⟨m, hm⟩ := (hi.bits i hi32).mp hused
    have hq : ∀ k n, Function.update s.queues i none k = some n → k ≠ i ∧ s.queues k = some n :=
      fun k n => update_none_eq_some.mp
    refine ⟨?_, ?_, ?_, ?_, ?_, ?_, hi.nodup, hi.deliveredLt, ?_⟩
    · intro j hj
      show isUsed (clearSlot s.bitmap i) j = true ↔
        ∃ n, Function.update s.queues i none j = some n
      rw [isUsed_clear_low _ hi32 hj, Bool.and_eq_true, decide_eq_true_iff, hi.bits j hj]
      by_cases he : j = i
      · simp [he]
      · simp [he]
    · intro k hge
      have hne : k ≠ i := by omega
      exact (Function.update_of_ne hne _ _).trans (hi.high k hge)
    · rintro j ⟨q, hq', hj, -, hj30⟩
      obtain rfl : i + 1 = q := Option.some.inj hq'
      show isUsed (clearSlot s.bitmap i) j = false
      rw [isUsed_clear_low _ hi32 (by omega), Bool.and_eq_false_iff, decide_eq_false_iff_not]
      by_cases he : j = i
      · exact .inr (not_not.mpr he)
      · left
        by_cases hjp : j < p
        · exact hpass j hjp (by omega) hj30
        · exact hclear j (by omega) (by omega)
    · intro k n h
      obtain ⟨hne, h⟩ := hq k n h
      obtain ⟨h₁, h₂, -⟩ := hi.slotFresh k n h
      exact ⟨h₁, h₂, fun hc => hne (hi.slotInj k i n h hc)⟩
    · intro k l n h₁ h₂
      exact hi.slotInj k l n (hq k n h₁).2 (hq l n h₂).2
    · intro n h
      obtain ⟨h₁, h₂, -⟩ := hi.slotFresh i n h
      exact ⟨h₁, h₂⟩
    · intro n h
      rcases hi.kept n h with h | h | ⟨j, hj⟩
      · exact .inl h
      · rw [hh] at h; cases h
      · by_cases he : j = i
        · exact .inr (.inl (he ▸ hj))
        · exact .inr (.inr ⟨j, (Function.update_of_ne he _ _).trans hj⟩)

/-- The consumer's step keeps the invariant. -/
theorem Inv.consume {s : State} (hi : Inv s) : Inv (consume s) := by
  unfold Log.consume
  cases hp : s.pc with
  | top =>
    simp only
    by_cases hb : s.bitmap = 0#32
    · rw [if_pos hb]; exact hi
    · rw [if_neg hb]
      exact hi.scanFrom (by rw [hp]; rfl) fun j hj => absurd hj (Nat.not_lt_zero j)
  | writing i msg =>
    cases msg with
    | none =>
      have hsame : ∀ j, State.Doomed { s with pc := .relock i } j → s.Doomed j :=
        fun j ⟨q, hq, h⟩ => ⟨q, by rw [hp]; exact hq, h⟩
      exact { hi with
        passed := fun j hj => hi.passed j (hsame j hj)
        slotFresh := fun k n h => ⟨(hi.slotFresh k n h).1, (hi.slotFresh k n h).2.1, nofun⟩
        handFresh := fun n h => nomatch h
        kept := fun n h => by
          rcases hi.kept n h with h | h | h
          · exact .inl h
          · rw [hp] at h; cases h
          · exact .inr (.inr h) }
    | some m =>
      have hh : s.pc.hand = some m := by rw [hp]; rfl
      obtain ⟨hm, hmd⟩ := hi.handFresh m hh
      show Inv { s with delivered := s.delivered ++ [m], pc := .relock i }
      refine ⟨hi.bits, hi.high, ?_, ?_, hi.slotInj, (fun n h => nomatch h), ?_, ?_, ?_⟩
      · rintro j ⟨q, hq, h⟩
        exact hi.passed j ⟨q, by rw [hp]; exact hq, h⟩
      · intro k n h
        obtain ⟨h₁, h₂, h₃⟩ := hi.slotFresh k n h
        refine ⟨h₁, fun hd => ?_, nofun⟩
        rcases List.mem_append.mp hd with hd | hd
        · exact h₂ hd
        · exact h₃ (by rw [hh, List.mem_singleton.mp hd])
      · refine List.nodup_append.mpr ⟨hi.nodup, List.nodup_singleton m, fun a ha b hb => ?_⟩
        rw [List.mem_singleton.mp hb]
        exact fun he => hmd (he ▸ ha)
      · intro n hn
        rcases List.mem_append.mp hn with hn | hn
        · exact hi.deliveredLt n hn
        · rw [List.mem_singleton.mp hn]; exact hm
      · intro n hn
        rcases hi.kept n hn with h | h | h
        · exact .inl (List.mem_append_left _ h)
        · rw [hh] at h
          exact .inl (List.mem_append_right _ (by simp [Option.some.inj h]))
        · exact .inr (.inr h)
  | relock i =>
    refine hi.scanFrom (by rw [hp]; rfl) fun j h₁ h₂ h₃ => ?_
    exact hi.passed j ⟨i, by rw [hp]; rfl, h₁, h₂, h₃⟩

/-- Steps that fill no doomed slot keep the invariant. -/
theorem inv_keeps : machine.Keeps SafeStore Inv := by
  intro s a s' hi hsafe h
  cases a with
  | addEventBus ts pluginName name source ctx =>
    obtain rfl := Option.some.inj h
    exact hi.addCriticalError hsafe
  | addScheduler ts pluginName timerId source ctx =>
    obtain rfl := Option.some.inj h
    exact hi.addCriticalError hsafe
  | consume =>
    obtain rfl := Option.some.inj h
    exact hi.consume
  | connect flag =>
    obtain rfl := Option.some.inj h
    exact { hi with high := hi.high }

/-! ## A doomed slot -/

/-- The message `n` was put into the doomed slot `j`. -/
structure Losing (s : State) (j n : Nat) : Prop where
  queue : s.queues j = some n
  used : isUsed s.bitmap j = true
  doomed : s.Doomed j
  only : ∀ i, s.queues i = some n → i = j
  hand : s.pc.hand ≠ some n
  undelivered : n ∉ s.delivered
  stored : n < s.stored.length

/-- The write of a taken message brings the consumer back to its scan. -/
theorem Losing.write {s : State} {j n p : Nat} {msg : Option Nat} (hl : Losing s j n)
    (hp : s.pc = .writing p msg) : Losing (consume s) j n ∧ (consume s).pc = .relock p := by
  obtain ⟨q, hq, hd⟩ := hl.doomed
  have hne : msg ≠ some n := by have := hl.hand; rwa [hp] at this
  rw [hp] at hq
  cases msg with
  | none =>
    unfold consume
    rw [hp]
    exact ⟨{ hl with doomed := ⟨q, hq, hd⟩, hand := nofun }, rfl⟩
  | some m =>
    unfold consume
    rw [hp]
    refine ⟨{ hl with doomed := ⟨q, hq, hd⟩, hand := nofun, undelivered := fun h => ?_ }, rfl⟩
    rcases List.mem_append.mp h with h | h
    · exact hl.undelivered h
    · exact hne (by rw [List.mem_singleton.mp h])

/-- **What becomes of a doomed slot.** The scan comes to `j + 32`, clears the bit of `j`, and the
message stays behind. -/
theorem Losing.lost {s : State} {j n p : Nat} (hl : Losing s j n) (hp : s.pc = .relock p) :
    ∃ k t, machine.run (List.replicate k .consume) s = some t ∧ ¬ NoLoss t := by
  induction hd : j + 32 - p using Nat.strong_induction_on generalizing s p with
  | _ d ih =>
    obtain ⟨q, hq, hjp, hpj, hj30⟩ := hl.doomed
    rw [hp] at hq
    obtain rfl : p = q := Option.some.inj hq
    have hused : isUsed s.bitmap (j + 32) = true :=
      (isUsed_congr (by omega)).trans hl.used
    obtain ⟨i, hi, hij⟩ := nextUsed_exists hused hpj (by omega)
    obtain ⟨hpi, -, -, -⟩ := nextUsed_some hi
    have hji : j ≠ i := by omega
    have hstep : consume s = { s with
        queues := Function.update s.queues i none
        bitmap := clearSlot s.bitmap i
        pc := .writing (i + 1) (s.queues i) } := by
      simp only [consume, hp, scanFrom, hi]
    have honly : ∀ k, Function.update s.queues i none k = some n → k = j :=
      fun k hk => hl.only k (update_none_eq_some.mp hk).2
    have hhand : s.queues i ≠ some n := fun h => hji (hl.only i h).symm
    by_cases hlast : i = j + 32
    · -- The bit of `j` is cleared at `j + 32`.
      refine ⟨1, _, by rw [List.replicate_one]; exact rfl, fun hno => ?_⟩
      rw [hstep] at hno
      rcases hno n hl.stored with ⟨hc, -⟩ | ⟨-, h | ⟨k, -, hk, hku⟩⟩
      · exact hl.undelivered (List.count_pos_iff.mp (by simp only at hc; omega))
      · exact hhand h
      · rw [honly k hk, hlast] at hku
        have : isUsed (clearSlot s.bitmap (j + 32)) j = false := by
          rw [isUsed_clear, Bool.and_eq_false_iff]
          exact .inr (by simp)
        rw [this] at hku
        cases hku
    · have hl' : Losing (consume s) j n := by
        rw [hstep]
        refine ⟨?_, ?_, ⟨i + 1, rfl, by omega, by omega, hj30⟩, honly, hhand, hl.undelivered,
          hl.stored⟩
        · exact (Function.update_of_ne hji _ _).trans hl.queue
        · show isUsed (clearSlot s.bitmap i) j = true
          rw [isUsed_clear, Bool.and_eq_true, decide_eq_true_iff]
          exact ⟨hl.used, by omega⟩
      obtain ⟨hl₂, hp₂⟩ := hl'.write (show (consume s).pc = .writing (i + 1) (s.queues i) by
        rw [hstep])
      obtain ⟨k, t, hrun, ht⟩ := ih (j + 32 - (i + 1)) (by omega) hl₂ hp₂ rfl
      exact ⟨k + 2, t, hrun, ht⟩

/-- The invariant, and a producer that fills a doomed slot. -/
theorem Inv.losing {s : State} (hi : Inv s) {text : CStr} {j : Nat} (hf : freeSlot s.bitmap = some j)
    (hd : s.Doomed j) : Losing (Log.addCriticalError text s) j s.stored.length := by
  unfold Log.addCriticalError
  rw [hf]
  refine ⟨Function.update_self _ _ _, ?_, hd, fun i h => ?_, fun h => ?_, fun h => ?_, ?_⟩
  · show isUsed (markSlotUsed s.bitmap j) j = true
    rw [isUsed_mark]
    simp
  · by_contra hne
    have h' : s.queues i = some s.stored.length := (Function.update_of_ne hne _ _).symm.trans h
    exact Nat.lt_irrefl _ (hi.slotFresh i _ h').1
  · exact Nat.lt_irrefl _ (hi.handFresh _ h).1
  · exact Nat.lt_irrefl _ (hi.deliveredLt _ h)
  · simp

/-- After a store into a doomed slot the consumer's steps lose the message. -/
theorem Inv.unsafe_lost {s s' : State} {a : Label} (hi : Inv s) (h : machine.step a s = some s')
    (hu : ¬ SafeStore s a) :
    ∃ k t, machine.run (List.replicate k .consume) s' = some t ∧ ¬ NoLoss t := by
  obtain ⟨text, j, hf, hd, rfl⟩ : ∃ text j, freeSlot s.bitmap = some j ∧ s.Doomed j ∧
      s' = Log.addCriticalError text s := by
    cases a with
    | addEventBus ts pluginName name source ctx =>
      simp only [SafeStore, not_forall, not_not] at hu
      obtain ⟨j, hf, hd⟩ := hu
      exact ⟨_, j, hf, hd, (Option.some.inj h).symm⟩
    | addScheduler ts pluginName timerId source ctx =>
      simp only [SafeStore, not_forall, not_not] at hu
      obtain ⟨j, hf, hd⟩ := hu
      exact ⟨_, j, hf, hd, (Option.some.inj h).symm⟩
    | consume => exact absurd trivial hu
    | connect flag => exact absurd trivial hu
  have hl := @Inv.losing s hi text j hf hd
  obtain ⟨q, hq, -⟩ := hl.doomed
  cases hp : (Log.addCriticalError text s).pc with
  | top => rw [hp] at hq; cases hq
  | relock p => exact hl.lost hp
  | writing p msg =>
    obtain ⟨hl', hp'⟩ := hl.write hp
    obtain ⟨k, t, hrun, ht⟩ := hl'.lost hp'
    exact ⟨k + 1, t, hrun, ht⟩

/-! ## When no message is lost -/

theorem replicate_consume_meets (k : Nat) (s : State) :
    machine.Meets SafeStore (List.replicate k .consume) s := by
  induction k generalizing s with
  | zero => trivial
  | succ k ih => exact ⟨trivial, fun t _ => ih t⟩

theorem meets_iff {s : State} (hi : Inv s) (as : List Label) :
    machine.Meets SafeStore as s ↔
      ∀ bs k t, bs <+: as → machine.run (bs ++ List.replicate k .consume) s = some t → NoLoss t := by
  constructor
  · rintro hm bs k t ⟨cs, rfl⟩ hr
    rw [Machine.run_append] at hr
    obtain ⟨u, hu, ht⟩ := Option.bind_eq_some_iff.mp hr
    have hiu := inv_keeps.run hi hm.initial hu
    exact (inv_keeps.run hiu (replicate_consume_meets k u) ht).noLoss
  · intro hno
    induction as generalizing s with
    | nil => trivial
    | cons a as ih =>
      have hsafe : SafeStore s a := by
        by_contra hu
        have hs : ∃ s', machine.step a s = some s' := by cases a <;> exact ⟨_, rfl⟩
        obtain ⟨s', hs'⟩ := hs
        obtain ⟨k, t, hrun, ht⟩ := hi.unsafe_lost hs' hu
        refine ht (hno [a] k t (List.prefix_append [a] as) ?_)
        exact Machine.run_cons_some.mpr ⟨s', hs', hrun⟩
      refine ⟨hsafe, fun s' hs' => ih (inv_keeps s a s' hi hsafe hs') fun bs k t hbs hr => ?_⟩
      refine hno (a :: bs) k t ?_ (Machine.run_cons_some.mpr ⟨s', hs', hr⟩)
      exact (List.prefix_cons_inj a).mpr hbs

/-- **When no message is lost.** In every state of a run, and of every run that the consumer
makes of it, each stored message was delivered once or waits where the consumer finds it, if and
only if no step of the run fills a doomed slot. -/
theorem noLoss_iff (connected : Bool) (as : List Label) :
    machine.Meets SafeStore as (init connected) ↔
      ∀ bs k t, bs <+: as →
        machine.run (bs ++ List.replicate k .consume) (init connected) = some t → NoLoss t :=
  meets_iff (inv_init connected) as

/-- A crash of plugin `p`'s timer 1. -/
def crash : Label := .addScheduler [] (some ['p']) 1 .scheduler ⟨11, 1, 0⟩

/-- **A message is lost.** The first message goes to slot 0. The consumer takes it, and while it
writes it the second message goes to slot 0 as well. The scan goes on, finds the bit set at slot
32, and clears it: the second message is not delivered, not in the consumer's hand, and in a slot
whose bit is clear. -/
theorem second_message_lost :
    ∃ t, machine.run [crash, .consume, crash, .consume, .consume, .consume, .consume]
        (init false) = some t ∧
      t.stored.length = 2 ∧ t.delivered = [0] ∧ t.pc = .top ∧ t.bitmap = 0#32 ∧
      t.queues 0 = some 1 ∧ ¬ NoLoss t := by
  refine ⟨_, rfl, rfl, by decide, by decide, by decide, by decide, fun h => ?_⟩
  rcases h 1 (by decide) with ⟨h, -⟩ | ⟨-, h | ⟨i, hi, -, h⟩⟩
  · exact absurd h (by decide)
  · exact absurd h (by decide)
  · revert i
    decide

end Log
end CoreCDTL
