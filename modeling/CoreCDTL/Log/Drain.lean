import CoreCDTL.Log.NoLoss
import CoreCDTL.Lib.Progress
import Mathlib.Data.Finset.Card
import Mathlib.Data.List.Perm.Basic

/-!
# The critical-error queue: the consumer drains it

When the callbacks stop crashing, the consumer alone empties the bitmap and goes back to its wait.

* `State.Rest`: the consumer waits, and no bit is set. `drains`: its own steps lead there, since
  each slot that the scan takes clears a bit (`consume_rank`).
* `Gone`: a message that no step delivers any more, since the scan does not come to its slot while
  the bit is set. `gone_keeps`: producers and the consumer leave it so. A store into a doomed slot
  makes such a message (`Inv.gone`).
* `drained_iff`: at rest the consumer has written every message exactly once if and only if no step
  of the run filled a doomed slot.
-/

namespace CoreCDTL
namespace Log

/-! ## The consumer comes to rest -/

/-- The consumer waits for a message, and there is none. -/
def State.Rest (s : State) : Prop := s.pc = .top ∧ s.bitmap = 0#32

instance (s : State) : Decidable s.Rest := inferInstanceAs (Decidable (_ ∧ _))

/-- The set bits. -/
def usedBits (b : BitVec 32) : Finset Nat := (Finset.range 32).filter fun i => isUsed b i = true

theorem usedBits_clear {b : BitVec 32} {i : Nat} (h : isUsed b i = true) :
    (usedBits (clearSlot b i)).card < (usedBits b).card := by
  have hi : i % 32 < 32 := Nat.mod_lt _ (by decide)
  have hsame : isUsed b (i % 32) = isUsed b i := isUsed_congr (Nat.mod_mod i 32)
  refine Finset.card_lt_card ⟨fun j hj => ?_, fun hsub => ?_⟩
  · unfold usedBits at hj ⊢
    rw [Finset.mem_filter] at hj ⊢
    rw [isUsed_clear, Bool.and_eq_true] at hj
    exact ⟨hj.1, hj.2.1⟩
  · have hmem : i % 32 ∈ usedBits b :=
      Finset.mem_filter.mpr ⟨Finset.mem_range.mpr hi, hsame.trans h⟩
    have hclear := (Finset.mem_filter.mp (hsub hmem)).2
    rw [isUsed_clear, Bool.and_eq_true, decide_eq_true_iff] at hclear
    exact hclear.2 (Nat.mod_mod i 32)

/-- A bitmap that is not empty has a bit set. -/
theorem isUsed_of_ne_zero {b : BitVec 32} (h : b ≠ 0#32) : ∃ i, i < 32 ∧ isUsed b i = true := by
  by_contra hno
  refine h (BitVec.eq_of_getLsbD_eq fun i hi => ?_)
  rw [BitVec.getLsbD_zero]
  by_contra hbit
  refine hno ⟨i, hi, ?_⟩
  rw [isUsed_eq, Nat.mod_eq_of_lt hi]
  exact Bool.not_eq_false _ ▸ hbit

/-- The steps that the consumer still takes in this pass. -/
def Pc.rank : Pc → Nat
  | .top => 0
  | .relock _ => 1
  | .writing _ _ => 2

def State.rank (s : State) : Nat := 3 * (usedBits s.bitmap).card + s.pc.rank

theorem scanFrom_rank {s : State} {i : Nat} (h : (nextUsed s.bitmap i).isSome ∨ 0 < s.pc.rank) :
    (scanFrom i s).rank < s.rank := by
  unfold scanFrom State.rank
  cases hn : nextUsed s.bitmap i with
  | none =>
    have hpos : 0 < s.pc.rank := by
      rcases h with h | h
      · rw [hn] at h
        cases h
      · exact h
    show 3 * (usedBits s.bitmap).card + 0 < _
    omega
  | some k =>
    obtain ⟨-, -, hused, -⟩ := nextUsed_some hn
    have hlt := usedBits_clear hused
    simp only [Pc.rank]
    omega

/-- Away from its rest each step of the consumer lowers the variant. -/
theorem consume_rank {s : State} (h : ¬ s.Rest) : (consume s).rank < s.rank := by
  unfold consume
  cases hp : s.pc with
  | top =>
    have hb : s.bitmap ≠ 0#32 := fun hb => h ⟨hp, hb⟩
    obtain ⟨i, hi, hu⟩ := isUsed_of_ne_zero hb
    obtain ⟨k, hk, -⟩ := nextUsed_exists hu (Nat.zero_le i) (by omega)
    simp only [if_neg hb]
    exact scanFrom_rank (.inl (by rw [hk]; rfl))
  | writing i msg =>
    cases msg with
    | none => simp only [State.rank, hp, Pc.rank]; omega
    | some n => simp only [State.rank, hp, Pc.rank]; omega
  | relock i => exact scanFrom_rank (.inr (by rw [hp]; exact Nat.one_pos))

/-- **The consumer comes to rest**, and what its steps keep holds there. -/
theorem drains {I : State → Prop} (hI : ∀ s, I s → I (consume s)) {s : State} (hs : I s) :
    machine.Reaches (· = .consume) (fun t => t.Rest ∧ I t) s := by
  refine Machine.Reaches.of_variant (I := I) State.rank (fun t ht hrest => ?_) hs
  have hnot : ¬ t.Rest := fun h => hrest ⟨h, ht⟩
  exact ⟨.consume, consume t, rfl, rfl, hI t ht, consume_rank hnot⟩

theorem scanFrom_stored (i : Nat) (s : State) : (scanFrom i s).stored = s.stored := by
  unfold scanFrom
  split
  · rfl
  · rfl

theorem consume_stored (s : State) : (consume s).stored = s.stored := by
  unfold consume
  split
  · split
    · rfl
    · exact scanFrom_stored 0 s
  · rfl
  · rfl
  · exact scanFrom_stored _ s

/-! ## What is lost stays lost -/

/-- The message `n` was stored, and no step delivers it any more. -/
structure Gone (n : Nat) (s : State) : Prop where
  stored : n < s.stored.length
  undelivered : n ∉ s.delivered
  hand : s.pc.hand ≠ some n
  slot : ∀ i, s.queues i = some n → i ≤ 30 ∧ (isUsed s.bitmap i = true → s.Doomed i)

theorem Gone.addCriticalError {n : Nat} {s : State} (h : Gone n s) (text : CStr) :
    Gone n (addCriticalError text s) := by
  unfold Log.addCriticalError
  cases hf : freeSlot s.bitmap with
  | none => exact h
  | some j =>
    obtain ⟨hj, -⟩ := freeSlot_some hf
    have hne : n ≠ s.stored.length := Nat.ne_of_lt h.stored
    refine ⟨?_, h.undelivered, h.hand, fun i hi => ?_⟩
    · simpa using Nat.lt_succ_of_lt h.stored
    · -- The slot `j` is overwritten, and the bit of every other slot is as it was.
      rcases update_some_eq_some.mp hi with ⟨-, he⟩ | ⟨hij, hi⟩
      · exact absurd he hne
      · obtain ⟨hi30, hdoomed⟩ := h.slot i hi
        refine ⟨hi30, fun hu => hdoomed ?_⟩
        rw [isUsed_mark_low _ hj (by omega), Bool.or_eq_true, decide_eq_true_iff] at hu
        exact hu.resolve_right hij

/-- The scan of a new pass, or of one that goes on at `p`. -/
theorem Gone.scanFrom {n p : Nat} {s : State} (h : Gone n s)
    (hp : ∀ i, s.Doomed i → i < p ∧ p ≤ i + 32) : Gone n (scanFrom p s) := by
  unfold Log.scanFrom
  cases hn : nextUsed s.bitmap p with
  | none =>
    refine ⟨h.stored, h.undelivered, nofun, fun i hi => ?_⟩
    obtain ⟨hi30, hdoomed⟩ := h.slot i hi
    refine ⟨hi30, fun hu => ?_⟩
    -- The scan would have found the bit at `i + 32`.
    obtain ⟨-, hle⟩ := hp i (hdoomed hu)
    have hu' : isUsed s.bitmap (i + 32) = true := (isUsed_congr (by omega)).trans hu
    obtain ⟨k, hk, -⟩ := nextUsed_exists hu' hle (by omega)
    rw [hn] at hk
    cases hk
  | some k =>
    obtain ⟨hpk, -, hused, -⟩ := nextUsed_some hn
    have hbehind : ∀ i, s.queues i = some n → isUsed s.bitmap i = true → i < p ∧ p ≤ i + 32 :=
      fun i hi hu => hp i ((h.slot i hi).2 hu)
    refine ⟨h.stored, h.undelivered, fun hk => ?_, fun i hi => ?_⟩
    · have := (hbehind k hk hused).1
      omega
    · have hi := (update_none_eq_some.mp hi).2
      obtain ⟨hi30, -⟩ := h.slot i hi
      refine ⟨hi30, fun hu => ?_⟩
      rw [isUsed_clear, Bool.and_eq_true, decide_eq_true_iff] at hu
      obtain ⟨hlt, hle⟩ := hbehind i hi hu.1
      have hu' : isUsed s.bitmap (i + 32) = true := (isUsed_congr (by omega)).trans hu.1
      obtain ⟨k', hk', hk'i⟩ := nextUsed_exists hu' hle (by omega)
      rw [hn] at hk'
      cases hk'
      exact ⟨k + 1, rfl, by omega, by omega, hi30⟩

theorem Gone.consume {n : Nat} {s : State} (h : Gone n s) : Gone n (consume s) := by
  unfold Log.consume
  cases hp : s.pc with
  | top =>
    simp only
    split
    · exact h
    · exact h.scanFrom fun i ⟨q, hq, _⟩ => by rw [hp] at hq; cases hq
  | writing i msg =>
    have hnext : ∀ j (t : State), t.pc = .relock i → s.Doomed j → t.Doomed j :=
      fun j t ht ⟨q, hq, hd⟩ => ⟨q, by rw [hp] at hq; rw [ht]; exact hq, hd⟩
    cases msg with
    | none =>
      exact { h with
        hand := nofun
        slot := fun j hj => ⟨(h.slot j hj).1, fun hu => hnext j _ rfl ((h.slot j hj).2 hu)⟩ }
    | some m =>
      have hm : m ≠ n := fun he => h.hand (by rw [hp, he]; rfl)
      refine ⟨h.stored, fun hd => ?_, nofun,
        fun j hj => ⟨(h.slot j hj).1, fun hu => hnext j _ rfl ((h.slot j hj).2 hu)⟩⟩
      rcases List.mem_append.mp hd with hd | hd
      · exact h.undelivered hd
      · exact hm (List.mem_singleton.mp hd).symm
  | relock i =>
    refine h.scanFrom fun j ⟨q, hq, hlt, hle, _⟩ => ?_
    rw [hp] at hq
    cases hq
    exact ⟨hlt, hle⟩

theorem gone_keeps (n : Nat) : machine.Keeps (fun _ _ => True) (Gone n) := by
  intro s a s' h _ hs
  cases a with
  | addEventBus ts pluginName name source ctx => cases hs; exact h.addCriticalError _
  | addScheduler ts pluginName timerId source ctx => cases hs; exact h.addCriticalError _
  | consume => cases hs; exact h.consume
  | connect flag =>
    cases hs
    exact { h with slot := h.slot }

/-- A store into a doomed slot makes a message that is never delivered. -/
theorem Losing.gone {s : State} {j n : Nat} (h : Losing s j n) : Gone n s where
  stored := h.stored
  undelivered := h.undelivered
  hand := h.hand
  slot := fun i hi => by
    obtain rfl := h.only i hi
    obtain ⟨p, hp, h₁, h₂, h₃⟩ := h.doomed
    exact ⟨h₃, fun _ => ⟨p, hp, h₁, h₂, h₃⟩⟩

theorem Inv.gone {s s' : State} {a : Label} (hi : Inv s) (h : machine.step a s = some s')
    (hu : ¬ SafeStore s a) : Gone s.stored.length s' := by
  cases a with
  | addEventBus ts pluginName name source ctx =>
    simp only [SafeStore, not_forall, not_not] at hu
    obtain ⟨j, hf, hd⟩ := hu
    cases h
    exact (hi.losing hf hd).gone
  | addScheduler ts pluginName timerId source ctx =>
    simp only [SafeStore, not_forall, not_not] at hu
    obtain ⟨j, hf, hd⟩ := hu
    cases h
    exact (hi.losing hf hd).gone
  | consume => exact absurd trivial hu
  | connect flag => exact absurd trivial hu

/-- After a run that filled a doomed slot some message is gone. -/
theorem Inv.gone_of_not_meets {s t : State} {as : List Label} (hi : Inv s)
    (hr : machine.run as s = some t) (hu : ¬ machine.Meets SafeStore as s) : ∃ n, Gone n t := by
  induction as generalizing s with
  | nil => exact absurd trivial hu
  | cons a as ih =>
    obtain ⟨u, hs, hr⟩ := Machine.run_cons_some.mp hr
    by_cases hsafe : SafeStore s a
    · refine ih (inv_keeps s a u hi hsafe hs) hr fun hm => hu ⟨hsafe, fun v hv => ?_⟩
      rw [hs] at hv
      cases hv
      exact hm
    · exact ⟨_, (gone_keeps _).run_all (hi.gone hs hsafe) hr⟩

/-! ## Result -/

/-- At rest every message is delivered, and none twice. -/
theorem Inv.delivered_perm {s : State} (hi : Inv s) (hrest : s.Rest) :
    s.delivered.Perm (List.range s.stored.length) := by
  refine (List.perm_ext_iff_of_nodup hi.nodup List.nodup_range).mpr fun n => ?_
  rw [List.mem_range]
  refine ⟨hi.deliveredLt n, fun hn => ?_⟩
  rcases hi.kept n hn with h | h | ⟨j, hj⟩
  · exact h
  · rw [hrest.1] at h
    cases h
  · have hu := (hi.slot hj).2
    rw [hrest.2, isUsed_eq, BitVec.getLsbD_zero] at hu
    cases hu

/-- **The queue drains.** From the end of every run the consumer alone comes to rest, with no bit
set. It has then handed every stored message to the file writer exactly once if and only if no step
of the run filled a doomed slot; otherwise some message is never written. -/
theorem drained_iff (connected : Bool) (as : List Label) (s : State)
    (hr : machine.run as (init connected) = some s) :
    machine.Reaches (· = .consume)
      (fun t => t.Rest ∧ t.stored = s.stored ∧
        (t.delivered.Perm (List.range s.stored.length) ↔
          machine.Meets SafeStore as (init connected))) s := by
  by_cases hm : machine.Meets SafeStore as (init connected)
  · have hi : Inv s := inv_keeps.run (inv_init connected) hm hr
    obtain ⟨bs, t, hbs, ht, hrest, hit, hst⟩ := drains (I := fun t => Inv t ∧ t.stored = s.stored)
      (fun t h => ⟨h.1.consume, (consume_stored t).trans h.2⟩) ⟨hi, rfl⟩
    exact ⟨bs, t, hbs, ht, hrest, hst, fun _ => hm, fun _ => hst ▸ hit.delivered_perm hrest⟩
  · obtain ⟨n, hn⟩ := (inv_init connected).gone_of_not_meets hr hm
    obtain ⟨bs, t, hbs, ht, hrest, hgt, hst⟩ := drains (I := fun t => Gone n t ∧ t.stored = s.stored)
      (fun t h => ⟨h.1.consume, (consume_stored t).trans h.2⟩) ⟨hn, rfl⟩
    refine ⟨bs, t, hbs, ht, hrest, hst, fun hp => ?_, fun h => absurd h hm⟩
    have hlt : n < s.stored.length := hst ▸ hgt.stored
    exact absurd (hp.mem_iff.mpr (List.mem_range.mpr hlt)) hgt.undelivered

/-- Three crashes before the consumer's first step: it writes all three messages. -/
theorem drained_iff_three :
    ∃ s, machine.run [crash, crash, crash] (init false) = some s ∧
      machine.Reaches (· = .consume) (fun t => t.Rest ∧ t.delivered.Perm [0, 1, 2]) s := by
  obtain ⟨s, hs⟩ : ∃ s, s = (machine.run [crash, crash, crash] (init false)).getD (init false) :=
    ⟨_, rfl⟩
  have hrun : machine.run [crash, crash, crash] (init false) = some s := by rw [hs]; rfl
  have hlen : s.stored.length = 3 := by rw [hs]; rfl
  -- The consumer waits at each of the three stores, so no slot is doomed.
  have hsafe : machine.Meets SafeStore [crash, crash, crash] (init false) := by
    have htop : ∀ t : State, t.pc = .top → SafeStore t crash := by
      rintro t ht j - ⟨p, hp, -⟩
      rw [ht] at hp
      cases hp
    have hnext : ∀ t u : State, t.pc = .top → machine.step crash t = some u → u.pc = .top := by
      intro t u ht hu
      cases hu
      unfold addSchedulerCriticalError addCriticalError
      split
      · exact ht
      · exact ht
    refine ⟨htop _ rfl, fun t ht => ?_⟩
    have ht := hnext _ _ rfl ht
    refine ⟨htop _ ht, fun u hu => ?_⟩
    have hu := hnext _ _ ht hu
    exact ⟨htop _ hu, fun _ _ => trivial⟩
  obtain ⟨bs, t, hbs, ht, hrest, -, hiff⟩ := drained_iff false _ s hrun
  have hperm := hiff.mpr hsafe
  rw [hlen] at hperm
  exact ⟨s, hrun, bs, t, hbs, ht, hrest, hperm⟩

end Log
end CoreCDTL
