import Mathlib.Data.List.Basic

/-!
# Streams of frames

A `Framing` writes a frame so that a reader of a stream finds where it ends: `decode` reads the first
frame of a stream, of the frames that are `Good`, and nothing else.

* `decodeAll`: the reader of a whole stream. `decodeAll_iff`: it reads exactly the streams of good
  frames, as these frames.
* `decodeAll_sent_iff`: a sender that may cut its frames short is understood if and only if every
  frame is good and none is cut.
-/

namespace CoreCDTL

/-- A way to write frames of type `β` one after the other. -/
structure Framing (α β : Type) where
  encode : β → List α
  decode : List α → Option (β × List α)
  Good : β → Prop
  decode_encode : ∀ b rest, Good b → decode (encode b ++ rest) = some (b, rest)
  of_decode : ∀ s b rest, decode s = some (b, rest) → Good b ∧ s = encode b ++ rest
  encode_ne : ∀ b, encode b ≠ []

namespace Framing

variable {α β γ : Type} (F : Framing α β)

/-- The frames of a stream, at most `n` of them. -/
def decodeUpTo : Nat → List α → Option (List β)
  | _, [] => some []
  | 0, _ :: _ => none
  | n + 1, a :: s => (F.decode (a :: s)).bind fun p => (decodeUpTo n p.2).map (p.1 :: ·)

/-- The frames of a stream; none if it is not one of good frames. -/
def decodeAll (s : List α) : Option (List β) := F.decodeUpTo s.length s

variable {F}

theorem decodeUpTo_flatMap {bs : List β} (h : ∀ b ∈ bs, F.Good b) {n : Nat} (hn : bs.length ≤ n) :
    F.decodeUpTo n (bs.flatMap F.encode) = some bs := by
  induction bs generalizing n with
  | nil => cases n <;> rfl
  | cons b bs ih =>
    obtain ⟨m, rfl⟩ : ∃ m, n = m + 1 := ⟨n - 1, by rw [List.length_cons] at hn; omega⟩
    have hm : bs.length ≤ m := by
      rw [List.length_cons] at hn
      omega
    have hd := F.decode_encode b (bs.flatMap F.encode) (h b List.mem_cons_self)
    have hrest := ih (fun c hc => h c (List.mem_cons_of_mem b hc)) hm
    rw [List.flatMap_cons]
    cases hs : F.encode b ++ bs.flatMap F.encode with
    | nil => exact absurd (List.append_eq_nil_iff.mp hs).1 (F.encode_ne b)
    | cons a s =>
      rw [hs] at hd
      rw [decodeUpTo, hd, Option.bind_some, hrest, Option.map_some]

theorem of_decodeUpTo {n : Nat} {s : List α} {bs : List β} (h : F.decodeUpTo n s = some bs) :
    (∀ b ∈ bs, F.Good b) ∧ s = bs.flatMap F.encode := by
  induction n generalizing s bs with
  | zero =>
    cases s with
    | nil => cases h; exact ⟨nofun, rfl⟩
    | cons a s => cases h
  | succ n ih =>
    cases s with
    | nil => cases h; exact ⟨nofun, rfl⟩
    | cons a s =>
      obtain ⟨⟨b, rest⟩, hd, h⟩ := Option.bind_eq_some_iff.mp h
      obtain ⟨cs, hcs, rfl⟩ := Option.map_eq_some_iff.mp h
      obtain ⟨hb, he⟩ := F.of_decode _ _ _ hd
      obtain ⟨hgood, hrest⟩ := ih hcs
      refine ⟨fun c hc => ?_, ?_⟩
      · rcases List.mem_cons.mp hc with rfl | hc
        · exact hb
        · exact hgood c hc
      · rw [he, List.flatMap_cons, ← hrest]

theorem length_le_flatMap (bs : List β) : bs.length ≤ (bs.flatMap F.encode).length := by
  induction bs with
  | nil => exact Nat.zero_le _
  | cons b bs ih =>
    have hpos : 0 < (F.encode b).length := List.length_pos_iff.mpr (F.encode_ne b)
    rw [List.flatMap_cons, List.length_append, List.length_cons]
    omega

/-- **Reading a stream.** -/
theorem decodeAll_iff {s : List α} {bs : List β} :
    F.decodeAll s = some bs ↔ (∀ b ∈ bs, F.Good b) ∧ s = bs.flatMap F.encode := by
  refine ⟨of_decodeUpTo, fun ⟨hgood, hs⟩ => ?_⟩
  rw [decodeAll, hs]
  exact decodeUpTo_flatMap hgood (length_le_flatMap bs)

/-- Two ways to write the same things, one of them never longer: the streams agree if and only if
every piece does. -/
theorem flatMap_eq_iff {f g : γ → List α} (hle : ∀ c, (f c).length ≤ (g c).length) {cs : List γ} :
    cs.flatMap f = cs.flatMap g ↔ ∀ c ∈ cs, f c = g c := by
  have hall : ∀ ds : List γ, (ds.flatMap f).length ≤ (ds.flatMap g).length := by
    intro ds
    induction ds with
    | nil => exact Nat.le_refl _
    | cons d ds ih =>
      simp only [List.flatMap_cons, List.length_append]
      exact Nat.add_le_add (hle d) ih
  induction cs with
  | nil => simp
  | cons c cs ih =>
    rw [List.flatMap_cons, List.flatMap_cons, List.forall_mem_cons]
    constructor
    · intro h
      have hlen := congrArg List.length h
      rw [List.length_append, List.length_append] at hlen
      have h₁ := hle c
      have h₂ := hall cs
      obtain ⟨hc, hcs⟩ := List.append_inj h (by omega)
      exact ⟨hc, ih.mp hcs⟩
    · rintro ⟨hc, hcs⟩
      rw [hc, ih.mpr hcs]

/-- **A sender that may cut its frames.** -/
theorem decodeAll_sent_iff {sent : γ → List α} {frame : γ → β}
    (hle : ∀ c, (sent c).length ≤ (F.encode (frame c)).length) {cs : List γ} :
    F.decodeAll (cs.flatMap sent) = some (cs.map frame) ↔
      ∀ c ∈ cs, F.Good (frame c) ∧ sent c = F.encode (frame c) := by
  rw [decodeAll_iff, List.flatMap_map, flatMap_eq_iff hle, List.forall_mem_map]
  exact forall₂_and.symm

end Framing
end CoreCDTL
