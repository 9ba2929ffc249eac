import CoreCDTL.HeapKit.Assign
import CoreCDTL.HeapKit.Registry
import CoreCDTL.HeapKit.Serialize
import CoreCDTL.Plugin.Ids
import CoreCDTL.Scheduler.Telemetry

/-!
# The lines of the listings

* `hk_listing_agrees`: `hk_get_list` gives each type the text of `hk_serialize`.
* `scheduler_listing_exact`: `scheduler_get_list` gives the whole lines of the timers, cut off where
  the buffer ends.
* `complete_listings_iff`: when `event_bus_get_list` and `pm_list_serialize` give one whole line for
  each entry.
-/

namespace CoreCDTL
namespace Gateway

open HeapKit (FloatText StrHeap RegisteredType ValidRegistry serializeLoop serializeLoop_shift
  nul_not_mem_serializeLoop hkSerialize mem_of_strchr)
open Plugin (Handle Entry manifestLine manifestLines pluginManifestSet pluginDir)
open Scheduler (IsInt Timer fits_int fits_fmtPluginId fits_fmtLld)

variable {n : Nat} {buf buf' : List Char}

/-! ## The types -/

/-- `[plugin] [id]`, whole. -/
theorem hkHeader_eq (pluginId : Nat) :
    hkHeader pluginId = "[plugin] [".toList ++ fmtPluginId pluginId ++ "]\n".toList := by
  have hfits : Fits (10 + 11 + 2) ("[plugin] [".toList ++ fmtPluginId pluginId ++ "]\n".toList) :=
    (Fits.append (by decide) (fits_fmtPluginId pluginId)).append (by decide)
  exact hfits.snprintf_eq (by decide)

/-- The lines of a type, with the text of its fields. -/
def hkLines (text : RegisteredType → CStr) (r : RegisteredType) : CStr :=
  "[plugin] [".toList ++ fmtPluginId r.pluginId ++ "]\n".toList ++
    (r.typeInfo.name ++ " ".toList ++ text r ++ "\n".toList)

/-- The text of the fields as `hk_serialize` makes it in 1024 bytes. -/
def fieldsText (io : FloatText) (h : StrHeap) (r : RegisteredType) : CStr :=
  (serializeLoop io h r.dInstance 1024 r.typeInfo.fields []).2

/-- A round that goes on: the fields have fitted into `typeLine` behind the name, so they fit 1024
bytes by themselves, and the buffer has the two lines of the type. -/
theorem hkListLoop_round {io : FloatText} {h : StrHeap} {r : RegisteredType}
    {regs : List (Option RegisteredType)} (hnul : nul ∉ r.typeInfo.name)
    (hshort : r.typeInfo.name.length < 64) {s : CStr} (hb : Holds n s buf)
    (hrun : hkListLoop io h n (some r :: regs) buf = some (0, buf')) :
    ∃ buf₁, (serializeLoop io h r.dInstance 1024 r.typeInfo.fields []).1 = 0 ∧
      Holds n (s ++ hkLines (fieldsText io h) r) buf₁ ∧
      hkListLoop io h n regs buf₁ = some (0, buf') := by
  have hname : Fits (63 + 1) (r.typeInfo.name ++ " ".toList) :=
    Fits.append ⟨hnul, Nat.le_of_lt_succ hshort⟩ (by decide)
  have hstart := hname.snprintf_eq (show 63 + 1 < 1024 by decide)
  have hheader : nul ∉ hkHeader r.pluginId := nul_not_mem_snprintf _ _
  rw [hkListLoop] at hrun
  simp only [hb.strlen_eq, Option.bind_some, Option.elim_some, hstart] at hrun
  by_cases hfull : s.length + (hkHeader r.pluginId).length ≥ n
  · simp [if_pos hfull] at hrun
  simp only [if_neg hfull] at hrun
  obtain ⟨buf₁, h₁, hb₁⟩ := hb.strcat hheader (Nat.not_le.mp hfull)
  rw [h₁, Option.bind_some] at hrun
  rcases hloop : serializeLoop io h r.dInstance 1024 r.typeInfo.fields
    (r.typeInfo.name ++ " ".toList) with ⟨ret, typeLine⟩
  simp only [hloop] at hrun
  by_cases hret : ret ≠ 0
  · rw [if_pos hret] at hrun
    cases hrun
    exact absurd rfl hret
  rw [if_neg hret] at hrun
  rw [not_not.mp hret] at hloop
  have hline : nul ∉ typeLine := by
    have hn := nul_not_mem_serializeLoop io h r.dInstance 1024 r.typeInfo.fields hname.noNul
    rwa [hloop] at hn
  obtain ⟨t, rfl, ht⟩ := serializeLoop_shift
    (Nat.lt_of_le_of_lt hname.length_le (by decide)) hloop
  simp only [hb₁.strlen_eq, Option.bind_some] at hrun
  by_cases hover : (s ++ hkHeader r.pluginId).length +
      (r.typeInfo.name ++ " ".toList ++ t).length + 1 ≥ n
  · simp only [if_pos hover, Option.some.injEq, Prod.mk.injEq] at hrun
    exact absurd hrun.1 (by decide)
  simp only [if_neg hover] at hrun
  obtain ⟨buf₂, h₂, hb₂⟩ := hb₁.strcat hline (by omega)
  obtain ⟨buf₃, h₃, hb₃⟩ := hb₂.strcat (t := "\n".toList) (by decide) (by
    rw [List.length_append]
    exact Nat.not_le.mp hover)
  rw [h₂, Option.bind_some, h₃, Option.bind_some] at hrun
  have hlines : hkLines (fieldsText io h) r =
      hkHeader r.pluginId ++ (r.typeInfo.name ++ " ".toList ++ t ++ "\n".toList) := by
    rw [hkHeader_eq]
    unfold hkLines fieldsText
    rw [ht]
  refine ⟨buf₃, by rw [ht], ?_, hrun⟩
  rw [hlines]
  simp only [List.append_assoc] at hb₃ ⊢
  exact hb₃

/-- **The loop over the types**, if it gets to the end. -/
theorem hkListLoop_lines {io : FloatText} {h : StrHeap} {regs : List RegisteredType}
    (hnames : ∀ r ∈ regs, nul ∉ r.typeInfo.name ∧ r.typeInfo.name.length < 64) {s : CStr}
    (hb : Holds n s buf) (hrun : hkListLoop io h n (regs.map some) buf = some (0, buf')) :
    (∀ r ∈ regs, (serializeLoop io h r.dInstance 1024 r.typeInfo.fields []).1 = 0) ∧
      Holds n (s ++ regs.flatMap (hkLines (fieldsText io h))) buf' := by
  induction regs generalizing s buf with
  | nil =>
    cases hrun
    exact ⟨by simp, by simpa using hb⟩
  | cons r regs ih =>
    obtain ⟨hnul, hshort⟩ := hnames r List.mem_cons_self
    rw [List.map_cons] at hrun
    obtain ⟨buf₁, hfields, hb₁, hrun⟩ := hkListLoop_round hnul hshort hb hrun
    obtain ⟨hrest, hb'⟩ := ih (fun q hq => hnames q (List.mem_cons_of_mem r hq)) hb₁ hrun
    refine ⟨List.forall_mem_cons.mpr ⟨hfields, hrest⟩, ?_⟩
    rwa [List.flatMap_cons, ← List.append_assoc]

/-- **The two renderers agree.** For every table of types with names shorter than 64 bytes, and
every instances: when `hk_get_list` is called with an empty buffer and returns 0, `hk_serialize`
into 1024 bytes returns 0 for each type, and the listing behind its header is, type by type, the
line of the plugin and the line of the name with that text. -/
theorem hk_listing_agrees {io : FloatText} {st : HeapKit.State} {regs : List RegisteredType}
    (hregs : ValidRegistry st regs)
    (hnames : ∀ r ∈ regs, nul ∉ r.typeInfo.name ∧ r.typeInfo.name.length < 64)
    (hbuf : Holds n [] buf) (hrun : hkGetList io st buf n = some (0, buf')) :
    ∃ text : RegisteredType → CStr,
      (∀ r ∈ regs,
        hkSerialize io st r.pluginId r.typeInfo.name (some 1024) = .ok (0, text r)) ∧
      Holds n ("[on_data] [hk]\n[getall]\n".toList ++ regs.flatMap (hkLines text)) buf' := by
  unfold hkGetList at hrun
  have hroom : ([] : CStr).length + "[on_data] [hk]\n[getall]\n".toList.length < n := by
    -- Without room for the header, `strcat` writes past the end.
    by_contra hsmall
    unfold strcat at hrun
    rw [hbuf.strlen_eq, Option.bind_some, put, if_neg, Option.bind_none] at hrun
    · cases hrun
    · rw [hbuf.size, List.length_append]
      exact fun hle => hsmall (Nat.lt_of_succ_le hle)
  obtain ⟨buf₁, h₁, hb₁⟩ := hbuf.strcat (t := "[on_data] [hk]\n[getall]\n".toList) (by decide) hroom
  rw [h₁, Option.bind_some, hregs.slots] at hrun
  obtain ⟨hzero, hb'⟩ := hkListLoop_lines hnames hb₁ hrun
  refine ⟨fieldsText io st.strs, fun r hr => ?_, hb'⟩
  obtain ⟨i, hi⟩ := hregs.find hr
  unfold hkSerialize
  simp only [hi, Except.ok.injEq]
  exact Prod.ext (hzero r hr) rfl

/-- The listing of one type of two ints. -/
theorem hk_listing_agrees_twoInts :
    ∃ buf' text, hkGetList ⟨fun _ => [], fun _ => 0⟩ ⟨[some HeapKit.twoInts], StrHeap.empty⟩
        (List.replicate 100 nul) 100 = some (0, buf') ∧
      hkSerialize ⟨fun _ => [], fun _ => 0⟩ ⟨[some HeapKit.twoInts], StrHeap.empty⟩ 1 ['p']
        (some 1024) = .ok (0, text) ∧
      Holds 100 ("[on_data] [hk]\n[getall]\n".toList ++ hkLines (fun _ => text) HeapKit.twoInts)
        buf' := by
  have hrun : (hkGetList ⟨fun _ => [], fun _ => 0⟩ ⟨[some HeapKit.twoInts], StrHeap.empty⟩
      (List.replicate 100 nul) 100).any (fun p => p.1 = 0) = true := by decide +kernel
  obtain ⟨⟨ret, buf'⟩, hrun, hret⟩ := Option.any_eq_true _ _ |>.mp hrun
  obtain rfl : ret = 0 := by simpa using hret
  obtain ⟨text, htext, hb⟩ := @hk_listing_agrees 100 (List.replicate 100 nul) buf' _ _
    [HeapKit.twoInts] ⟨rfl, List.nodup_singleton _, by decide⟩ (by decide)
    ⟨List.length_replicate, by decide, by decide⟩ hrun
  rw [List.flatMap_cons, List.flatMap_nil, List.append_nil] at hb
  exact ⟨buf', _, hrun, htext _ (List.mem_singleton_self _), hb⟩

/-! ## The timers -/

/-- A line of `scheduler_get_list`, whole. -/
def timerText (t : Timer) : CStr :=
  (if t.repeating then "[every] ".toList else "[after] ".toList) ++ fmtD t.id ++ " ".toList ++
    fmtPluginId t.pluginId ++ " ".toList ++ fmtLld t.intervalMs ++ "\n".toList

/-- `temp[128]` has room for every line. -/
theorem timerLine_eq {t : Timer} (hid : IsInt t.id) : timerLine t = timerText t := by
  have hkind : Fits 8 (if t.repeating then "[every] ".toList else "[after] ".toList) := by
    cases t.repeating <;> decide
  have hblank : Fits 1 " ".toList := by decide
  have hlast : Fits 1 "\n".toList := by decide
  have hfits : Fits (8 + 11 + 1 + 11 + 1 + 20 + 1) (timerText t) :=
    (((((hkind.append (fits_int hid)).append hblank).append (fits_fmtPluginId _)).append
      hblank).append (fits_fmtLld _)).append hlast
  exact hfits.snprintf_eq (by decide)

/-- **`scheduler_get_list` is an exact bounded listing.** For every list of timers and every buffer
of at least one byte, whatever it held: at the end it has the header and the whole line of each
timer in list order, cut off at its size less one. Wherever the loop stands between two timers, the
length of the text and its NUL are at most the size, so that `remaining` does not wrap. -/
theorem scheduler_listing_exact {timers : List Timer} (hid : ∀ t ∈ timers, IsInt t.id)
    (hsize : buf.length = n) (hpos : 1 ≤ n) :
    (∃ buf', schedulerGetList timers buf n = some buf' ∧
        Holds n (("[on_data] [scheduler]\n[getall]\n".toList ++ timers.flatMap timerText).take
          (n - 1)) buf') ∧
      ∀ front rest, timers = front ++ rest →
        ∃ buf₁ currentLen, schedulerGetList front buf n = some buf₁ ∧
          strlen buf₁ = some currentLen ∧ currentLen + 1 ≤ n ∧
          schedulerGetList timers buf n = (rest.map timerLine).foldlM (appendLine n) buf₁ := by
  constructor
  · have hlines : (timers.map timerLine).flatten = timers.flatMap timerText := by
      rw [List.map_congr_left fun t ht => timerLine_eq (hid t ht)]
      rfl
    rw [← hlines]
    exact schedulerGetList_holds timers hsize hpos
  · rintro front rest rfl
    obtain ⟨buf₁, h₁, hb₁⟩ := schedulerGetList_holds front hsize hpos
    refine ⟨buf₁, _, h₁, hb₁.strlen_eq, hb₁.length_lt, ?_⟩
    unfold schedulerGetList at h₁ ⊢
    cases hheader : snprintfTo buf n "[on_data] [scheduler]\n[getall]\n".toList with
    | none =>
      rw [hheader] at h₁
      cases h₁
    | some buf₀ =>
      rw [hheader, Option.bind_some] at h₁
      rw [Option.bind_some, List.map_append, List.foldlM_append, h₁]
      rfl

/-- A timer in forty bytes: the line is cut off. -/
theorem scheduler_listing_exact_forty :
    ∃ buf', schedulerGetList [⟨⟨0, 1, 500, 0, 0, 2, true⟩, 0, 0, 0⟩] (List.replicate 40 'x') 40 =
        some buf' ∧
      Holds 40 (("[on_data] [scheduler]\n[getall]\n".toList ++
        timerText ⟨⟨0, 1, 500, 0, 0, 2, true⟩, 0, 0, 0⟩).take 39) buf' := by
  have hid : ∀ t ∈ [(⟨⟨0, 1, 500, 0, 0, 2, true⟩, 0, 0, 0⟩ : Timer)], IsInt t.id := by
    intro t ht
    rw [List.mem_singleton.mp ht]
    exact ⟨by decide, by decide⟩
  have hlist := (@scheduler_listing_exact 40 (List.replicate 40 'x') _ hid List.length_replicate
    (by decide)).1
  rwa [List.flatMap_cons, List.flatMap_nil, List.append_nil] at hlist

/-! ## One line for each entry -/

/-- A text that ends with its only newline. -/
def OneLine (t : CStr) : Prop := ∃ l, t = l ++ ['\n'] ∧ '\n' ∉ l

/-- The listing left the header in the buffer and then the lines, each of them one line. -/
def Lists (n : Nat) (header : CStr) (lines : List CStr) (result : Option (List Char)) : Prop :=
  ∃ buf, result = some buf ∧ Holds n (header ++ lines.flatten) buf ∧ ∀ l ∈ lines, OneLine l

/-- A line of `event_bus_get_list`, whole. -/
def subText (it : EventBus.Sub) : CStr :=
  "[".toList ++ it.event ++ "] ".toList ++ fmtPluginId it.pluginId ++ "\n".toList

/-- A line of `pm_list_serialize`, whole. -/
def pmText (stale : Nat → CStr) (h : Handle) : CStr :=
  "[".toList ++ fmtS (h.info.name.map (·.text stale)) ++ "] ".toList ++
    fmtPluginId h.info.id ++ " [".toList ++ fmtS h.info.version ++ "] ".toList ++
    fmtD h.info.code ++ " ".toList ++ fmtD h.state.toNat ++ " ".toList ++
    fmtD (if h.funcs.startFn ≠ none ∧ h.funcs.stopFn ≠ none then 1 else 0) ++ "\n".toList

/-- A text that can stand in a line. -/
def InLine (t : CStr) : Prop := nul ∉ t ∧ '\n' ∉ t

theorem inLine_append {a b : CStr} : InLine (a ++ b) ↔ InLine a ∧ InLine b := by
  unfold InLine
  rw [List.mem_append, List.mem_append, not_or, not_or]
  exact and_and_and_comm

theorem inLine_fmtD (k : Int) : InLine (fmtD k) :=
  ⟨nul_not_mem_fmtD k, not_mem_fmtD (by decide) (by decide) k⟩

theorem oneLine_iff {t : CStr} : OneLine (t ++ "\n".toList) ↔ '\n' ∉ t := by
  constructor
  · rintro ⟨l, heq, hl⟩
    rwa [List.append_inj_left' heq rfl]
  · exact fun ht => ⟨t, rfl, ht⟩

/-- A line is one line, and whole if `temp` has room for it. -/
theorem InLine.line {t : CStr} (h : InLine t) {size : Nat} (hsize : 0 < size) :
    (snprintf size (t ++ "\n".toList) = t ++ "\n".toList ↔ (t ++ "\n".toList).length < size) ∧
      OneLine (t ++ "\n".toList) := by
  refine ⟨?_, oneLine_iff.mpr h.2⟩
  have hnul : nul ∉ t ++ "\n".toList := by
    rw [List.mem_append]
    exact not_or.mpr ⟨h.1, by decide⟩
  rw [snprintf_eq_iff hsize]
  exact and_iff_right hnul

/-- A buffer with the header and a text lists the lines that make the text. -/
theorem lists_iff {header t : CStr} {lines : List CStr} {result : Option (List Char)}
    (hrun : result = some buf) (hb : Holds n (header ++ t) buf) :
    Lists n header lines result ↔ t = lines.flatten ∧ ∀ l ∈ lines, OneLine l := by
  constructor
  · rintro ⟨buf₁, hbuf₁, hb₁, hone⟩
    obtain rfl : buf = buf₁ := Option.some.inj (hrun.symm.trans hbuf₁)
    exact ⟨List.append_cancel_left (hb.text.symm.trans hb₁.text), hone⟩
  · rintro ⟨heq, hone⟩
    exact ⟨buf, hrun, heq ▸ hb, hone⟩

/-! ### The subscriptions -/

/-- A subscription has one whole line. -/
theorem subLine_whole_iff {it : EventBus.Sub} (hnul : nul ∉ it.event) :
    subLine it = subText it ∧ OneLine (subText it) ↔
      (subText it).length ≤ 511 ∧ '\n' ∉ it.event := by
  have hline : OneLine (subText it) ↔ '\n' ∉ it.event := by
    have h₁ : '\n' ∉ "[".toList := by decide
    have h₂ : '\n' ∉ "] ".toList := by decide
    have h₃ := (inLine_fmtD (asInt it.pluginId)).2
    rw [subText, oneLine_iff]
    simp only [List.mem_append, not_or, fmtPluginId, h₁, h₂, h₃, not_false_eq_true, true_and,
      and_true]
  rw [hline]
  refine and_congr_left fun hnl => ?_
  have hin : InLine ("[".toList ++ it.event ++ "] ".toList ++ fmtPluginId it.pluginId) :=
    inLine_append.mpr ⟨inLine_append.mpr ⟨inLine_append.mpr ⟨⟨by decide, by decide⟩, hnul, hnl⟩,
      by decide, by decide⟩, inLine_fmtD _⟩
  exact (hin.line (by decide)).1.trans Nat.lt_succ_iff

theorem eventBus_lists_iff {subs : List EventBus.Sub} (hevents : ∀ it ∈ subs, nul ∉ it.event)
    (hsize : buf.length = n)
    (hroom : ("[on_data] [event_bus]\n[getall]\n".toList ++
      (subs.map subText).flatten).length < n) :
    Lists n "[on_data] [event_bus]\n[getall]\n".toList (subs.map subText)
        (eventBusGetList subs buf n) ↔
      ∀ it ∈ subs, (subText it).length ≤ 511 ∧ '\n' ∉ it.event := by
  have hpre : ∀ it ∈ subs, subLine it <+: subText it := fun it _ => snprintf_isPrefix 512 _
  obtain ⟨buf', hrun, hb'⟩ := eventBusGetList_holds subs hsize (Nat.zero_lt_of_lt hroom)
  have hshort := flatten_map_length_le hpre
  rw [List.length_append] at hroom
  rw [List.take_of_length_le (by rw [List.length_append]; omega)] at hb'
  rw [lists_iff hrun hb', flatten_map_eq_iff hpre, List.forall_mem_map, ← forall₂_and]
  exact forall₂_congr fun it hit => subLine_whole_iff (hevents it hit)

/-! ### The plugins -/

/-- The texts of a plugin that its manifest gives can stand in a line. -/
def TextsInLine (stale : Nat → CStr) (h : Handle) : Prop :=
  InLine (fmtS (h.info.name.map (·.text stale))) ∧ InLine (fmtS h.info.version)

theorem pmLine_whole_iff {stale : Nat → CStr} {h : Handle} (htexts : TextsInLine stale h) :
    (pmLine stale h = pmText stale h ↔ (pmText stale h).length ≤ 255) ∧
      OneLine (pmText stale h) := by
  have hin : InLine ("[".toList ++ fmtS (h.info.name.map (·.text stale)) ++ "] ".toList ++
      fmtPluginId h.info.id ++ " [".toList ++ fmtS h.info.version ++ "] ".toList ++
      fmtD h.info.code ++ " ".toList ++ fmtD h.state.toNat ++ " ".toList ++
      fmtD (if h.funcs.startFn ≠ none ∧ h.funcs.stopFn ≠ none then 1 else 0)) := by
    have h₁ : InLine "[".toList := ⟨by decide, by decide⟩
    have h₂ : InLine "] ".toList := ⟨by decide, by decide⟩
    have h₃ : InLine " [".toList := ⟨by decide, by decide⟩
    have h₄ : InLine " ".toList := ⟨by decide, by decide⟩
    simp only [inLine_append, fmtPluginId, inLine_fmtD, htexts.1, htexts.2, h₁, h₂, h₃, h₄,
      and_self]
  have hline := hin.line (show 0 < 256 by decide)
  exact ⟨hline.1.trans Nat.lt_succ_iff, hline.2⟩

theorem pmText_ne_nil (stale : Nat → CStr) (h : Handle) : pmText stale h ≠ [] := by
  unfold pmText
  exact List.append_ne_nil_of_right_ne_nil _ (by decide)

theorem linesThatFit_isPrefix (size k : Nat) (lines : List CStr) :
    linesThatFit size k lines <+: lines := by
  induction lines generalizing k with
  | nil => exact List.prefix_refl _
  | cons t lines ih =>
    unfold linesThatFit
    split
    · exact (List.prefix_cons_inj t).mpr (ih _)
    · exact List.nil_prefix

/-- The test of `pm_list_serialize` leaves one byte unused. -/
theorem linesThatFit_all_iff {size k : Nat} {lines : List CStr} (hne : ∀ t ∈ lines, t ≠ []) :
    (linesThatFit size k lines).flatten = lines.flatten ↔
      lines = [] ∨ k + lines.flatten.length + 1 < size := by
  induction lines generalizing k with
  | nil => simp [linesThatFit]
  | cons t lines ih =>
    have hpos := List.length_pos_iff.mpr (hne t List.mem_cons_self)
    have hrest := @ih (k + t.length) fun u hu => hne u (List.mem_cons_of_mem t hu)
    unfold linesThatFit
    rw [List.flatten_cons, List.length_append]
    by_cases hfit : t.length < size - k - 1
    · rw [if_pos hfit, List.flatten_cons, List.append_cancel_left_eq, hrest]
      constructor
      · rintro (rfl | hlt)
        · refine .inr ?_
          rw [List.flatten_nil, List.length_nil]
          omega
        · exact .inr (by omega)
      · rintro (h | hlt)
        · cases h
        · exact .inr (by omega)
    · rw [if_neg hfit]
      constructor
      · intro heq
        have hlen := congrArg List.length heq
        rw [List.flatten_nil, List.length_nil, List.length_append] at hlen
        omega
      · rintro (h | hlt)
        · cases h
        · omega

/-- The lines that fit are the first of the lines, and these begin the whole ones. -/
theorem linesThatFit_whole_iff {α : Type} {l : List α} {line text : α → CStr} {size k : Nat}
    (hpre : ∀ a ∈ l, line a <+: text a) (hne : ∀ a ∈ l, text a ≠ []) :
    (linesThatFit size k (l.map line)).flatten = (l.map text).flatten ↔
      (∀ a ∈ l, line a = text a) ∧ (l = [] ∨ k + (l.map text).flatten.length + 1 < size) := by
  have hfit := (linesThatFit_isPrefix size k (l.map line)).flatten
  have hshort := flatten_map_length_le hpre
  have hall : ∀ t ∈ l.map text, t ≠ [] := List.forall_mem_map.mpr hne
  have hrest : (∀ a ∈ l, line a = text a) →
      ((linesThatFit size k (l.map line)).flatten = (l.map text).flatten ↔
        l = [] ∨ k + (l.map text).flatten.length + 1 < size) := by
    intro hwhole
    rw [List.map_congr_left hwhole, linesThatFit_all_iff hall, List.map_eq_nil_iff]
  constructor
  · intro heq
    have hwhole : ∀ a ∈ l, line a = text a := by
      rw [← flatten_map_eq_iff hpre, ← heq]
      have hlen := congrArg List.length heq
      exact (hfit.eq_of_length (by have := hfit.length_le; omega)).symm
    exact ⟨hwhole, (hrest hwhole).mp heq⟩
  · rintro ⟨hwhole, hroom⟩
    exact (hrest hwhole).mpr hroom

theorem pm_lists_iff {stale : Nat → CStr} {plugins : List Handle}
    (htexts : ∀ h ∈ plugins, TextsInLine stale h) (hsize : buf.length = n)
    (hroom : ("[on_data] [pm]\n[getall]\n".toList ++
      (plugins.map (pmText stale)).flatten).length < n) :
    Lists n "[on_data] [pm]\n[getall]\n".toList (plugins.map (pmText stale))
        (pmListSerialize stale plugins buf n) ↔
      (∀ h ∈ plugins, (pmText stale h).length ≤ 255) ∧
        (plugins = [] ∨ ("[on_data] [pm]\n[getall]\n".toList ++
          (plugins.map (pmText stale)).flatten).length + 1 < n) := by
  have hpre : ∀ h ∈ plugins, pmLine stale h <+: pmText stale h :=
    fun h _ => snprintf_isPrefix 256 _
  obtain ⟨buf', header, hrun, hheader, hb'⟩ :=
    pmListSerialize_holds stale plugins hsize (Nat.zero_lt_of_lt hroom)
  rw [List.length_append] at hroom ⊢
  rw [List.take_of_length_le (by omega)] at hheader
  subst hheader
  have hone : ∀ l ∈ plugins.map (pmText stale), OneLine l :=
    List.forall_mem_map.mpr fun h hh => (pmLine_whole_iff (htexts h hh)).2
  rw [lists_iff hrun hb', and_iff_left hone,
    linesThatFit_whole_iff hpre fun h _ => pmText_ne_nil stale h]
  exact and_congr_left' (forall₂_congr fun h hh => (pmLine_whole_iff (htexts h hh)).1)

/-- What a manifest line leaves in the handle can stand in a line if the line can. -/
theorem textsInLine_manifestLine {stale : Nat → CStr} {h : Handle} (htexts : TextsInLine stale h)
    (alloc : Bool) {line : CStr} (hline : InLine line) :
    TextsInLine stale (manifestLine alloc line h).1 := by
  unfold manifestLine
  split
  · exact htexts
  split
  · split
    · exact htexts
    · split
      · exact htexts
      · exact htexts
  · split
    · exact htexts
    · rename_i key value heq
      have hvalue : InLine (value.dropWhile (· = ' ')) := by
        constructor
        · exact fun hm => hline.1 (mem_of_strchr heq ((List.dropWhile_suffix _).mem hm))
        · exact fun hm => hline.2 (mem_of_strchr heq ((List.dropWhile_suffix _).mem hm))
      unfold Handle.setInfo
      simp only
      split
      · exact ⟨hvalue, htexts.2⟩
      split
      · exact ⟨htexts.1, hvalue⟩
      split
      · exact htexts
      · exact htexts

theorem inLine_chomp (line : List Char) : InLine (chomp line) := by
  constructor
  · exact fun hm => nul_not_mem_cstr line ((List.takeWhile_prefix _).mem hm)
  · intro hm
    have := List.mem_takeWhile_imp hm
    simp at this

/-- **The manifest gives texts that can stand in a line.** -/
theorem textsInLine_manifest {stale : Nat → CStr} {h : Handle} (htexts : TextsInLine stale h)
    (e : Entry) (currentId : Nat) :
    TextsInLine stale (pluginManifestSet e currentId h).2.1 := by
  have hlines : ∀ (lines : List CStr) (k : Nat) (h : Handle), (∀ l ∈ lines, InLine l) →
      TextsInLine stale h → TextsInLine stale (manifestLines e.paramAlloc k lines h).1 := by
    intro lines
    induction lines with
    | nil => exact fun _ _ _ h => h
    | cons line rest ih =>
      intro k h hin htexts
      have hline := textsInLine_manifestLine htexts (e.paramAlloc k) (hin line List.mem_cons_self)
      unfold manifestLines
      rcases hm : manifestLine (e.paramAlloc k) line h with ⟨g, _ | _⟩
      · rw [hm] at hline
        exact hline
      · rw [hm] at hline
        exact ih (k + 1) g (fun l hl => hin l (List.mem_cons_of_mem line hl)) hline
  unfold pluginManifestSet
  cases e.manifest with
  | none => exact htexts
  | some text =>
    have hread := hlines ((fgetsLines 256 text).map chomp) 0 h (by
      intro l hl
      obtain ⟨line, -, rfl⟩ := List.mem_map.mp hl
      exact inLine_chomp line) htexts
    simp only
    rcases hm : manifestLines e.paramAlloc 0 ((fgetsLines 256 text).map chomp) h with ⟨g, _ | _⟩
    · rwa [hm] at hread
    · rwa [hm] at hread

/-! ### Both listings -/

/-- **One line for each entry.** For every list of subscriptions, every plugin table with texts as
a manifest gives them, and every two buffers with room for the whole listings, whatever they held:
`event_bus_get_list` writes its header and one whole line for each subscription, in order, if and
only if each line has at most 511 characters and no event has a newline; `pm_list_serialize` writes
its header and one whole line for each plugin if and only if each line has at most 255 characters
and there is no plugin or the buffer is larger than the listing by two bytes. -/
theorem complete_listings_iff {stale : Nat → CStr} {subs : List EventBus.Sub}
    {plugins : List Handle} {m : Nat} {buf' : List Char}
    (hevents : ∀ it ∈ subs, nul ∉ it.event) (htexts : ∀ h ∈ plugins, TextsInLine stale h)
    (hsize : buf.length = n)
    (hroom : ("[on_data] [event_bus]\n[getall]\n".toList ++
      (subs.map subText).flatten).length < n)
    (hsize' : buf'.length = m)
    (hroom' : ("[on_data] [pm]\n[getall]\n".toList ++
      (plugins.map (pmText stale)).flatten).length < m) :
    (Lists n "[on_data] [event_bus]\n[getall]\n".toList (subs.map subText)
        (eventBusGetList subs buf n) ↔
      ∀ it ∈ subs, (subText it).length ≤ 511 ∧ '\n' ∉ it.event) ∧
    (Lists m "[on_data] [pm]\n[getall]\n".toList (plugins.map (pmText stale))
        (pmListSerialize stale plugins buf' m) ↔
      (∀ h ∈ plugins, (pmText stale h).length ≤ 255) ∧
        (plugins = [] ∨ ("[on_data] [pm]\n[getall]\n".toList ++
          (plugins.map (pmText stale)).flatten).length + 1 < m)) :=
  ⟨eventBus_lists_iff hevents hsize hroom, pm_lists_iff htexts hsize' hroom'⟩

/-- A subscription and no plugin. -/
theorem complete_listings_iff_tick :
    Lists 60 "[on_data] [event_bus]\n[getall]\n".toList [subText ⟨"tick".toList, 1, 0, 0⟩]
        (eventBusGetList [⟨"tick".toList, 1, 0, 0⟩] (List.replicate 60 'x') 60) ∧
      Lists 25 "[on_data] [pm]\n[getall]\n".toList []
        (pmListSerialize (fun _ => []) [] (List.replicate 25 'x') 25) := by
  obtain ⟨hevents, hplugins⟩ := @complete_listings_iff 60 (List.replicate 60 'x') (fun _ => [])
    [⟨"tick".toList, 1, 0, 0⟩] [] 25 (List.replicate 25 'x') (by decide) (by simp)
    List.length_replicate (by decide +kernel) List.length_replicate (by decide)
  exact ⟨hevents.mpr (by decide +kernel), hplugins.mpr ⟨by simp, .inl rfl⟩⟩

/-- An entry whose manifest has a name of 200 characters and a version of 100. -/
def longNames : Entry :=
  { pluginDir ['a'] true with
    manifest := some ("Name=".toList ++ List.replicate 200 'n' ++ "\nVersion=".toList ++
      List.replicate 100 'v' ++ "\n".toList) }

/-- **Lines that are cut.** For a subscription of an event with 600 characters, and for the plugin of
that manifest, the listings into 1024 bytes are not one whole line. -/
theorem listings_cut :
    (pluginManifestSet longNames 1 Handle.zero).1 = 0 ∧
      ¬ Lists 1024 "[on_data] [event_bus]\n[getall]\n".toList
        [subText ⟨List.replicate 600 'e', 1, 0, 0⟩]
        (eventBusGetList [⟨List.replicate 600 'e', 1, 0, 0⟩] (List.replicate 1024 nul) 1024) ∧
      ¬ Lists 1024 "[on_data] [pm]\n[getall]\n".toList
        [pmText (fun _ => []) (pluginManifestSet longNames 1 Handle.zero).2.1]
        (pmListSerialize (fun _ => []) [(pluginManifestSet longNames 1 Handle.zero).2.1]
          (List.replicate 1024 nul) 1024) := by
  refine ⟨by decide +kernel, fun hlists => ?_, fun hlists => ?_⟩
  · have hnul : ∀ it ∈ [(⟨List.replicate 600 'e', 1, 0, 0⟩ : EventBus.Sub)], nul ∉ it.event := by
      intro it hit hm
      rw [List.mem_singleton.mp hit] at hm
      exact absurd (List.eq_of_mem_replicate hm) (by decide)
    have hshort := (eventBus_lists_iff hnul List.length_replicate (by decide +kernel)).mp hlists _
      (List.mem_singleton_self _)
    exact absurd hshort.1 (by decide +kernel)
  · have htexts : ∀ h ∈ [(pluginManifestSet longNames 1 Handle.zero).2.1],
        TextsInLine (fun _ => []) h := by
      intro h hh
      rw [List.mem_singleton.mp hh]
      exact textsInLine_manifest ⟨⟨by decide, by decide⟩, by decide, by decide⟩ longNames 1
    have hshort := ((pm_lists_iff htexts List.length_replicate (by decide +kernel)).mp hlists).1 _
      (List.mem_singleton_self _)
    exact absurd hshort (by decide +kernel)

end Gateway
end CoreCDTL
