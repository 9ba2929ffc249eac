import CoreCDTL.Log.NoLoss

/-!
# The critical-error queue: its capacity

The table has 63 slots and the mask 32 bits. A producer refuses a message as soon as every bit is
set, with the slots from 32 on empty. And a bit does not say which of its two slots the consumer
took: if the scan cleared the bit of `j` at `j + 32`, a message is still in slot `j`, and the next
producer that finds the bit writes over it.

* `Right`: what the queue promises of one call of a producer.
* `clearedAt`: a history variable, for each bit the slot at which the consumer cleared it last.
* `Marks`: what the bits say about the slots, in every run.
* `capacity_right_iff`: every call of a run is right if and only if each finds a clear bit, and the
  lowest clear one was cleared at its own slot.
-/

namespace CoreCDTL
namespace Log

/-- Every slot holds a message. -/
def State.Full (s : State) : Prop :=
  ∀ i, i < MAX_CRITICAL_ERROR_QUEUE_SIZE → ∃ n, s.queues i = some n

/-- A call of a producer refuses its message only if the queue is full, and an accepted one leaves
every message in its slot. -/
def Right (s : State) (a : Label) : Prop :=
  match a with
  | .addEventBus .. | .addScheduler .. =>
    (freeSlot s.bitmap = none → s.Full) ∧
      ∀ t i n, machine.step a s = some t → s.queues i = some n → t.queues i = some n
  | .consume | .connect _ => True

/-- The slot that the consumer's next step clears. -/
def State.toClear (s : State) : Option Nat :=
  match s.pc with
  | .top => if s.bitmap = 0#32 then none else nextUsed s.bitmap 0
  | .writing .. => none
  | .relock i => nextUsed s.bitmap i

/-- For each bit, the slot at which the consumer cleared it last. -/
def clearedAt (a : Label) (s : State) (c : Nat → Nat) : Nat → Nat :=
  match a, s.toClear with
  | .consume, some i => Function.update c (i % 32) i
  | _, _ => c

/-- The queue with that history. -/
def tracing : Machine (State × (Nat → Nat)) Label := machine.withHistory clearedAt

/-- A producer finds a clear bit, and the lowest clear bit was cleared at its own slot. -/
def OwnSlot (x : State × (Nat → Nat)) (a : Label) : Prop :=
  match a with
  | .addEventBus .. | .addScheduler .. =>
    x.1.bitmap ≠ BitVec.allOnes 32 ∧ ∀ j, freeSlot x.1.bitmap = some j → x.2 j = j
  | .consume | .connect _ => True

/-- There is a free slot if and only if a bit is clear. -/
theorem freeSlot_none {b : BitVec 32} : freeSlot b = none ↔ b = BitVec.allOnes 32 := by
  unfold freeSlot
  rw [List.find?_eq_none]
  constructor
  · intro h
    apply BitVec.eq_of_getLsbD_eq
    intro i hi
    have hu := h i (List.mem_range.mpr (by unfold MAX_CRITICAL_ERROR_QUEUE_SIZE; omega))
    rw [Bool.not_eq_true, Bool.not_eq_false', isUsed_eq, Nat.mod_eq_of_lt hi] at hu
    rw [hu, BitVec.getLsbD_allOnes, decide_eq_true hi]
  · rintro rfl i -
    have hlt : i % 32 < 32 := Nat.mod_lt _ (by decide)
    rw [isUsed_eq, BitVec.getLsbD_allOnes, decide_eq_true hlt]
    decide

/-! ## The bits and the slots -/

/-- What the bits and the history say about the slots. -/
structure Marks (x : State × (Nat → Nat)) : Prop where
  high : ∀ i, 32 ≤ i → x.1.queues i = none
  set : ∀ j, j < 32 → isUsed x.1.bitmap j = true → ∃ n, x.1.queues j = some n
  clear : ∀ j, j < 32 → isUsed x.1.bitmap j = false → (x.1.queues j = none ↔ x.2 j = j)
  stored : ∀ i n, x.1.queues i = some n → n < x.1.stored.length

theorem marks_init (connected : Bool) : Marks (init connected, id) where
  high := fun _ _ => rfl
  set := fun j _ h => by simp [init, isUsed] at h
  clear := fun _ _ _ => iff_of_true rfl rfl
  stored := fun _ _ h => nomatch h

/-- A producer fills a slot and sets its bit. -/
theorem Marks.addCriticalError {s : State} {c : Nat → Nat} (h : Marks (s, c)) (text : CStr) :
    Marks (addCriticalError text s, c) := by
  unfold Log.addCriticalError
  cases hf : freeSlot s.bitmap with
  | none => exact h
  | some slot =>
    obtain ⟨hlt, -⟩ := freeSlot_some hf
    refine ⟨fun i hi => ?_, fun j hj hu => ?_, fun j hj hu => ?_, fun i n hq => ?_⟩
    · have hne : i ≠ slot := by omega
      exact (Function.update_of_ne hne _ _).trans (h.high i hi)
    · replace hu : isUsed (markSlotUsed s.bitmap slot) j = true := hu
      show ∃ n, Function.update s.queues slot (some s.stored.length) j = some n
      rw [isUsed_mark_low _ hlt hj, Bool.or_eq_true, decide_eq_true_iff] at hu
      by_cases he : j = slot
      · exact ⟨_, by rw [he, Function.update_self]⟩
      · rw [Function.update_of_ne he]
        exact h.set j hj (hu.resolve_right he)
    · replace hu : isUsed (markSlotUsed s.bitmap slot) j = false := hu
      show Function.update s.queues slot (some s.stored.length) j = none ↔ c j = j
      rw [isUsed_mark_low _ hlt hj, Bool.or_eq_false_iff, decide_eq_false_iff_not] at hu
      rw [Function.update_of_ne hu.2]
      exact h.clear j hj hu.1
    · replace hq : Function.update s.queues slot (some s.stored.length) i = some n := hq
      show n < (s.stored ++ [text]).length
      rw [List.length_append, List.length_singleton]
      rcases update_some_eq_some.mp hq with ⟨-, rfl⟩ | ⟨-, hq⟩
      · exact Nat.lt_succ_self _
      · exact Nat.lt_succ_of_lt (h.stored i n hq)

/-- The consumer empties a slot, clears its bit and leaves the number of the slot. Behind slot 31
the slot was empty, and the message with the same bit stays. -/
theorem Marks.take {s t : State} {c : Nat → Nat} {i : Nat} (h : Marks (s, c)) (hi : i < 63)
    (hu : isUsed s.bitmap i = true) (hq : t.queues = Function.update s.queues i none)
    (hb : t.bitmap = clearSlot s.bitmap i) (hs : t.stored = s.stored) :
    Marks (t, Function.update c (i % 32) i) := by
  have hkept : ∀ k n, t.queues k = some n → k ≠ i ∧ s.queues k = some n := by
    intro k n hk
    rw [hq] at hk
    exact update_none_eq_some.mp hk
  refine ⟨fun k hk => ?_, fun j hj hj' => ?_, fun j hj hj' => ?_, fun k n hk => ?_⟩
  · cases ht : t.queues k with
    | none => rfl
    | some n =>
      have hs := (hkept k n ht).2
      rw [h.high k hk] at hs
      cases hs
  · replace hj' : isUsed t.bitmap j = true := hj'
    show ∃ n, t.queues j = some n
    rw [hb, isUsed_clear, Bool.and_eq_true, decide_eq_true_iff] at hj'
    have hne : j ≠ i := fun he => hj'.2 (by rw [he])
    rw [hq, Function.update_of_ne hne]
    exact h.set j hj hj'.1
  · replace hj' : isUsed t.bitmap j = false := hj'
    show t.queues j = none ↔ Function.update c (i % 32) i j = j
    rw [hb, isUsed_clear, Bool.and_eq_false_iff, decide_eq_false_iff_not, not_not] at hj'
    rw [hq]
    by_cases hmod : j = i % 32
    · rw [hmod, Function.update_self]
      by_cases hlow : i < 32
      · rw [Nat.mod_eq_of_lt hlow]
        exact iff_of_true (Function.update_self i none s.queues) rfl
      · -- the bit of `i - 32` is set, so that slot holds a message
        have hne : i % 32 ≠ i := by omega
        obtain ⟨n, hn⟩ := h.set (i % 32) (Nat.mod_lt _ (by decide))
          ((isUsed_congr (Nat.mod_mod i 32)).trans hu)
        rw [Function.update_of_ne hne]
        exact iff_of_false (fun h => by rw [hn] at h; cases h) hne.symm
    · have hne : j ≠ i := by omega
      rw [Function.update_of_ne hne, Function.update_of_ne hmod]
      exact h.clear j hj (hj'.resolve_right (by omega))
  · rw [hs]
    exact h.stored k n (hkept k n hk).2

/-- A step of the consumer scans the table, or leaves it alone. -/
theorem consume_scans (s : State) :
    (s.toClear = none ∧ (consume s).queues = s.queues ∧ (consume s).bitmap = s.bitmap ∧
        (consume s).stored = s.stored) ∨
      ∃ p, s.toClear = nextUsed s.bitmap p ∧ consume s = scanFrom p s := by
  cases hp : s.pc with
  | top =>
    by_cases hb : s.bitmap = 0#32
    · left
      simp only [State.toClear, consume, hp, if_pos hb, and_self]
    · right
      exact ⟨0, by simp only [State.toClear, hp, if_neg hb],
        by simp only [consume, hp, if_neg hb]⟩
  | writing i msg =>
    left
    cases msg <;> simp only [State.toClear, consume, hp, and_self]
  | relock i =>
    right
    exact ⟨i, by simp only [State.toClear, hp], by simp only [consume, hp]⟩

/-- What a step of the consumer does to the table. -/
theorem consume_cases (s : State) :
    (s.toClear = none ∧ (consume s).queues = s.queues ∧ (consume s).bitmap = s.bitmap ∧
        (consume s).stored = s.stored) ∨
      ∃ p i, nextUsed s.bitmap p = some i ∧ s.toClear = some i ∧
        (consume s).queues = Function.update s.queues i none ∧
        (consume s).bitmap = clearSlot s.bitmap i ∧ (consume s).stored = s.stored := by
  rcases consume_scans s with h | ⟨p, hc, hs⟩
  · exact .inl h
  · rw [hs, hc]
    unfold scanFrom
    cases hn : nextUsed s.bitmap p with
    | none => exact .inl ⟨rfl, rfl, rfl, rfl⟩
    | some i => exact .inr ⟨p, i, hn, rfl, rfl, rfl, rfl⟩

theorem marks_keeps : tracing.Keeps (fun _ _ => True) Marks := by
  rintro ⟨s, c⟩ a ⟨t, d⟩ h - hstep
  obtain ⟨hs, rfl⟩ : machine.step a s = some t ∧ d = clearedAt a s c :=
    Machine.withHistory_step.mp hstep
  cases a with
  | addEventBus ts pluginName name source ctx =>
    obtain rfl := Option.some.inj hs
    exact h.addCriticalError _
  | addScheduler ts pluginName timerId source ctx =>
    obtain rfl := Option.some.inj hs
    exact h.addCriticalError _
  | consume =>
    obtain rfl := Option.some.inj hs
    rcases consume_cases s with ⟨hc, hq, hb, hst⟩ | ⟨p, i, hn, hc, hq, hb, hst⟩
    · simp only [clearedAt, hc]
      exact ⟨fun i hi => by rw [hq]; exact h.high i hi,
        fun j hj hu => by rw [hq]; exact h.set j hj (by rwa [hb] at hu),
        fun j hj hu => by rw [hq]; exact h.clear j hj (by rwa [hb] at hu),
        fun i n hi => by rw [hst]; exact h.stored i n (by rwa [hq] at hi)⟩
    · obtain ⟨-, hlt, hu, -⟩ := nextUsed_some hn
      simp only [clearedAt, hc]
      exact h.take hlt hu hq hb hst
  | connect flag =>
    obtain rfl := Option.some.inj hs
    exact ⟨h.high, h.set, h.clear, h.stored⟩

/-! ## The calls of a producer -/

/-- A producer that finds no bit finds empty slots. -/
theorem Marks.not_full {x : State × (Nat → Nat)} (h : Marks x) : ¬ x.1.Full := by
  intro hf
  obtain ⟨n, hn⟩ := hf 32 (by decide)
  rw [h.high 32 (Nat.le_refl _)] at hn
  cases hn

/-- An accepted message overwrites nothing if and only if its slot is empty. -/
theorem Marks.overwrites_iff {x : State × (Nat → Nat)} (h : Marks x) (text : CStr) :
    (∀ i n, x.1.queues i = some n → (Log.addCriticalError text x.1).queues i = some n) ↔
      ∀ j, freeSlot x.1.bitmap = some j → x.1.queues j = none := by
  unfold Log.addCriticalError
  cases hf : freeSlot x.1.bitmap with
  | none => exact iff_of_true (fun _ _ hn => hn) fun j hj => nomatch hj
  | some slot =>
    constructor
    · rintro hw j hj
      obtain rfl := Option.some.inj hj
      cases hq : x.1.queues slot with
      | none => rfl
      | some n =>
        -- The slot now holds the new message, whose number is not that of an old one.
        rcases update_some_eq_some.mp (hw slot n hq) with ⟨-, rfl⟩ | ⟨hne, -⟩
        · exact absurd (h.stored slot _ hq) (Nat.lt_irrefl _)
        · exact absurd rfl hne
    · intro he i n hn
      have hne : i ≠ slot := by rintro rfl; rw [he i rfl] at hn; cases hn
      exact (Function.update_of_ne hne _ _).trans hn

/-- One call of a producer. -/
theorem Marks.producer {x : State × (Nat → Nat)} (h : Marks x) (text : CStr) :
    ((freeSlot x.1.bitmap = none → x.1.Full) ∧
        ∀ i n, x.1.queues i = some n → (Log.addCriticalError text x.1).queues i = some n) ↔
      x.1.bitmap ≠ BitVec.allOnes 32 ∧ ∀ j, freeSlot x.1.bitmap = some j → x.2 j = j := by
  refine and_congr ?_ ((h.overwrites_iff text).trans (forall₂_congr fun j hj => ?_))
  · rw [ne_eq, ← freeSlot_none]
    exact ⟨fun hf hn => h.not_full (hf hn), fun hn hf => absurd hf hn⟩
  · obtain ⟨hlt, hclear⟩ := freeSlot_some hj
    exact h.clear j hlt hclear

theorem Marks.right {x : State × (Nat → Nat)} (h : Marks x) (a : Label) :
    Right x.1 a ↔ OwnSlot x a := by
  cases a with
  | addEventBus ts pluginName name source ctx =>
    rw [OwnSlot, ← h.producer (eventBusText ts pluginName name source ctx)]
    exact and_congr_right' ⟨fun hr i n => hr _ i n rfl,
      fun hr t i n ht => by obtain rfl := Option.some.inj ht; exact hr i n⟩
  | addScheduler ts pluginName timerId source ctx =>
    rw [OwnSlot, ← h.producer (schedulerText ts pluginName timerId source ctx)]
    exact and_congr_right' ⟨fun hr i n => hr _ i n rfl,
      fun hr t i n ht => by obtain rfl := Option.some.inj ht; exact hr i n⟩
  | consume => exact Iff.rfl
  | connect flag => exact Iff.rfl

/-- **When the queue uses its capacity.** In a run, every call of a producer that refuses its
message finds all 63 slots full and every accepted message leaves those in the table alone, if and
only if every call finds a clear bit and the lowest clear bit was cleared at its own slot, not at
the slot 32 above it. -/
theorem capacity_right_iff (connected : Bool) (as : List Label) :
    (∀ bs a s, bs ++ [a] <+: as → machine.run bs (init connected) = some s → Right s a) ↔
      tracing.Meets OwnSlot as (init connected, id) := by
  rw [← Machine.meets_iff_steps, ← @Machine.withHistory_meets _ _ machine _ clearedAt _ as _ id]
  exact (marks_keeps.mono fun _ _ _ => trivial).meets_iff (fun x a hx => hx.right a)
    (marks_init connected)

/-- **Half of the table is used, and a message is overwritten.** After 32 crashes the 33rd one is
refused, with slot 32 empty. And where the consumer has cleared the bit of slot 0 at slot 32, the
next crash goes to slot 0, over the second message. -/
theorem refused_and_overwritten :
    (∃ s, machine.run (List.replicate 32 crash) (init false) = some s ∧
      freeSlot s.bitmap = none ∧ s.queues 32 = none ∧ ¬ Right s crash) ∧
    ∃ s t, machine.run [crash, .consume, crash, .consume, .consume, .consume, .consume]
        (init false) = some s ∧ machine.step crash s = some t ∧
      s.queues 0 = some 1 ∧ t.queues 0 = some 2 ∧ ¬ Right s crash := by
  constructor
  · have hrun : ((machine.run (List.replicate 32 crash) (init false)).map
        fun s => (freeSlot s.bitmap, s.queues 32)) = some (none, none) := by decide +kernel
    obtain ⟨s, hs, he⟩ := Option.map_eq_some_iff.mp hrun
    obtain ⟨hf, hq⟩ := Prod.mk.inj he
    refine ⟨s, hs, hf, hq, fun h => ?_⟩
    obtain ⟨n, hn⟩ := h.1 hf 32 (by decide)
    rw [hq] at hn
    cases hn
  · refine ⟨_, _, rfl, rfl, by decide, by decide, fun h => ?_⟩
    have h₂ := h.2 _ 0 1 rfl (by decide)
    revert h₂
    decide

end Log
end CoreCDTL
