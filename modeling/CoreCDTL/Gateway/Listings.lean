import CoreCDTL.EventBus.Model
import CoreCDTL.HeapKit.Codec
import CoreCDTL.Lib.CBuffer
import CoreCDTL.Plugin.Manager
import CoreCDTL.Scheduler.Timers

/-!
# The listings for the gateway

The gateway library passes a buffer to `gateway_pm_get_list`, `gateway_eb_get_list`,
`gateway_sc_get_list` or `gateway_hk_get_list` and gets the text of a table of the core in it.

* **The code.** `pmListSerialize`, `eventBusGetList`, `schedulerGetList` and `hkGetList`, each on
  the buffer as it is found; `none` for a read or a write past its end.
* **The texts.** `eventBusGetList_holds` and `schedulerGetList_holds`: the whole text, cut off where
  the buffer ends. `pmListSerialize_holds`: the lines that fit. `hkGetList_holds`: what the buffer
  held before, and the listing behind it.
* `Determined`: the text depends on the core's tables and on the buffer's size only.
  `listing_determined_iff`: which listings are.
-/

namespace CoreCDTL
namespace Gateway

open HeapKit (FloatText StrHeap RegisteredType serializeLoop)
open Plugin (Handle)

/-! ## The code -/

/-- A `uint32_t` as `%d` reads it. -/
@[irreducible] def asInt (n : Nat) : Int := (n : Int).bmod (2 ^ 32)

/-- A `uint64_t` as `%lld` reads it. -/
@[irreducible] def asLongLong (n : Nat) : Int := (n : Int).bmod (2 ^ 64)

/-- `%d` of a `plugin_id_t`. -/
def fmtPluginId (pluginId : Nat) : CStr := fmtD (asInt pluginId)

/-- `%lld` of a `uint64_t`. -/
def fmtLld (n : Nat) : CStr := fmtD (asLongLong n)

/-- `%s` of a pointer that may be NULL. -/
def fmtS (s : Option CStr) : CStr := s.getD "(null)".toList

/-- `temp_buf` in `pm_list_serialize` for a plugin; `stale` gives the names that the table does not
own. -/
def pmLine (stale : Nat → CStr) (h : Handle) : CStr :=
  snprintf 256 ("[".toList ++ fmtS (h.info.name.map (·.text stale)) ++ "] ".toList ++
    fmtPluginId h.info.id ++ " [".toList ++ fmtS h.info.version ++ "] ".toList ++
    fmtD h.info.code ++ " ".toList ++ fmtD h.state.toNat ++ " ".toList ++
    fmtD (if h.funcs.startFn ≠ none ∧ h.funcs.stopFn ≠ none then 1 else 0) ++ "\n".toList)

/-- The loop of `pm_list_serialize`: it ends at the first line that does not fit. -/
def pmListLoop (size : Nat) : List CStr → List Char → Option (List Char)
  | [], buf => some buf
  | temp :: lines, buf =>
    (strlen buf).bind fun currLen =>
      let spaceLeft := size - currLen - 1
      if temp.length < spaceLeft then (strncat buf temp spaceLeft).bind (pmListLoop size lines)
      else some buf

/-- `pm_list_serialize` on the plugin table. -/
def pmListSerialize (stale : Nat → CStr) (plugins : List Handle) (outBuf : List Char)
    (outBufSize : Nat) : Option (List Char) :=
  (put outBuf 0 [nul]).bind fun buf =>
    (strlen buf).bind fun len =>
      (strncat buf "[on_data] [pm]\n[getall]\n".toList (outBufSize - len - 1)).bind
        (pmListLoop outBufSize (plugins.map (pmLine stale)))

/-- `temp` in `event_bus_get_list` for a subscription. -/
def subLine (it : EventBus.Sub) : CStr :=
  snprintf 512 ("[".toList ++ it.event ++ "] ".toList ++ fmtPluginId it.pluginId ++ "\n".toList)

/-- `event_bus_get_list` on the subscriptions. -/
def eventBusGetList (subs : List EventBus.Sub) (outBuf : List Char) (outBufSize : Nat) :
    Option (List Char) :=
  (snprintfTo outBuf outBufSize "[on_data] [event_bus]\n[getall]\n".toList).bind fun buf =>
    (subs.map subLine).foldlM (appendLine outBufSize) buf

/-- `temp` in `scheduler_get_list` for a timer. -/
def timerLine (it : Scheduler.Timer) : CStr :=
  snprintf 128 ((if it.repeating then "[every] ".toList else "[after] ".toList) ++ fmtD it.id ++
    " ".toList ++ fmtPluginId it.pluginId ++ " ".toList ++ fmtLld it.intervalMs ++ "\n".toList)

/-- `scheduler_get_list` on the timers. -/
def schedulerGetList (timers : List Scheduler.Timer) (outBuf : List Char) (bufLen : Nat) :
    Option (List Char) :=
  (snprintfTo outBuf bufLen "[on_data] [scheduler]\n[getall]\n".toList).bind fun buf =>
    (timers.map timerLine).foldlM (appendLine bufLen) buf

/-- `header` in `hk_get_list` for a slot with this plugin id. -/
def hkHeader (pluginId : Nat) : CStr :=
  snprintf 64 ("[plugin] [".toList ++ fmtPluginId pluginId ++ "]\n".toList)

/-- The loop of `hk_get_list` over the types: the return value and the buffer. The loop over the
fields is that of `hk_serialize`, into `typeLine[1024]`. -/
def hkListLoop (io : FloatText) (h : StrHeap) (size : Nat) :
    List (Option RegisteredType) → List Char → Option (Int × List Char)
  | [], buf => some (0, buf)
  | slot :: rest, buf =>
    let header := hkHeader (slot.elim 0 (·.pluginId))
    (strlen buf).bind fun len =>
      if len + header.length ≥ size then some (-3, buf)
      else
        (strcat buf header).bind fun buf =>
          match slot with
          | none => none
          | some reg =>
            let (ret, typeLine) := serializeLoop io h reg.dInstance 1024 reg.typeInfo.fields
              (snprintf 1024 (reg.typeInfo.name ++ " ".toList))
            if ret ≠ 0 then some (ret, buf)
            else
              (strlen buf).bind fun len =>
                if len + typeLine.length + 1 ≥ size then some (-3, buf)
                else
                  (strcat buf typeLine).bind fun buf =>
                    (strcat buf "\n".toList).bind (hkListLoop io h size rest)

/-- `hk_get_list`: the return value and the buffer. -/
def hkGetList (io : FloatText) (st : HeapKit.State) (outBuf : List Char) (outBufSize : Nat) :
    Option (Int × List Char) :=
  (strcat outBuf "[on_data] [hk]\n[getall]\n".toList).bind
    (hkListLoop io st.strs outBufSize st.registry)

/-- The tables that the listings show. -/
structure Core where
  stale : Nat → CStr
  plugins : List Handle
  subs : List EventBus.Sub
  timers : List Scheduler.Timer
  io : FloatText
  hk : HeapKit.State

def gatewayPmGetList (c : Core) (outBuf : List Char) (bufLen : Nat) : Option (List Char) :=
  pmListSerialize c.stale c.plugins outBuf bufLen

def gatewayEbGetList (c : Core) (outBuf : List Char) (bufLen : Nat) : Option (List Char) :=
  eventBusGetList c.subs outBuf bufLen

def gatewayScGetList (c : Core) (outBuf : List Char) (bufLen : Nat) : Option (List Char) :=
  schedulerGetList c.timers outBuf bufLen

/-- What `hk_get_list` returns is not looked at. -/
def gatewayHkGetList (c : Core) (outBuf : List Char) (bufLen : Nat) : Option (List Char) :=
  (hkGetList c.io c.hk outBuf bufLen).map (·.2)

/-- The listings of `gateway_entry`. -/
inductive Listing where
  | pmGetList | ebGetList | scGetList | hkGetList
  deriving DecidableEq, Repr

/-- A call through `gateway_entry`. -/
def Listing.call : Listing → Core → List Char → Nat → Option (List Char)
  | pmGetList => gatewayPmGetList
  | ebGetList => gatewayEbGetList
  | scGetList => gatewayScGetList
  | hkGetList => gatewayHkGetList

/-! ## The texts -/

theorem nul_not_mem_snprintf (size : Nat) (text : List Char) : nul ∉ snprintf size text :=
  nul_not_mem_cstr _

section Texts

variable {n : Nat} {buf : List Char}

/-- A header and a loop of appends. -/
theorem header_appendLines {header : CStr} {lines : List CStr} (hsize : buf.length = n)
    (hpos : 0 < n) (hh : nul ∉ header) (hl : ∀ t ∈ lines, nul ∉ t) :
    ∃ buf', (snprintfTo buf n header).bind (lines.foldlM (appendLine n)) = some buf' ∧
      Holds n ((header ++ lines.flatten).take (n - 1)) buf' := by
  obtain ⟨buf₁, h₁, hb₁⟩ := Holds.snprintfTo hsize hpos header
  have htext : snprintf n header = header.take (n - 1) :=
    cstr_eq_self fun hm => hh (List.mem_of_mem_take hm)
  rw [htext] at hb₁
  obtain ⟨buf₂, h₂, hb₂⟩ := hb₁.appendLines hl
  exact ⟨buf₂, by rw [h₁]; exact h₂, hb₂⟩

theorem eventBusGetList_holds (subs : List EventBus.Sub) (hsize : buf.length = n) (hpos : 0 < n) :
    ∃ buf', eventBusGetList subs buf n = some buf' ∧
      Holds n (("[on_data] [event_bus]\n[getall]\n".toList ++ (subs.map subLine).flatten).take
        (n - 1)) buf' := by
  apply header_appendLines hsize hpos (by decide)
  intro t ht
  obtain ⟨it, -, rfl⟩ := List.mem_map.mp ht
  exact nul_not_mem_snprintf _ _

theorem schedulerGetList_holds (timers : List Scheduler.Timer) (hsize : buf.length = n)
    (hpos : 0 < n) :
    ∃ buf', schedulerGetList timers buf n = some buf' ∧
      Holds n (("[on_data] [scheduler]\n[getall]\n".toList ++ (timers.map timerLine).flatten).take
        (n - 1)) buf' := by
  apply header_appendLines hsize hpos (by decide)
  intro t ht
  obtain ⟨it, -, rfl⟩ := List.mem_map.mp ht
  exact nul_not_mem_snprintf _ _

/-- The lines that `pm_list_serialize` appends to a text of length `k`. -/
def linesThatFit (size : Nat) : Nat → List CStr → List CStr
  | _, [] => []
  | k, t :: lines =>
    if t.length < size - k - 1 then t :: linesThatFit size (k + t.length) lines else []

theorem pmListLoop_holds {s : CStr} {lines : List CStr} (h : Holds n s buf)
    (hl : ∀ t ∈ lines, nul ∉ t) :
    ∃ buf', pmListLoop n lines buf = some buf' ∧
      Holds n (s ++ (linesThatFit n s.length lines).flatten) buf' := by
  induction lines generalizing s buf with
  | nil => exact ⟨buf, rfl, by simpa [linesThatFit] using h⟩
  | cons t lines ih =>
    have hlt := h.length_lt
    unfold pmListLoop linesThatFit
    rw [h.strlen_eq]
    simp only [Option.bind_some]
    split
    · rename_i hfit
      obtain ⟨buf₁, h₁, hb₁⟩ := h.strncat (hl t List.mem_cons_self)
        (show s.length + (n - s.length - 1) < n by omega)
      rw [List.take_of_length_le (by omega)] at hb₁
      obtain ⟨buf₂, h₂, hb₂⟩ := ih hb₁ fun u hu => hl u (List.mem_cons_of_mem t hu)
      rw [List.length_append, List.append_assoc] at hb₂
      exact ⟨buf₂, by rw [h₁]; exact h₂, hb₂⟩
    · exact ⟨buf, rfl, by simpa using h⟩

theorem pmListSerialize_holds (stale : Nat → CStr) (plugins : List Handle)
    (hsize : buf.length = n) (hpos : 0 < n) :
    ∃ buf' header, pmListSerialize stale plugins buf n = some buf' ∧
      header = "[on_data] [pm]\n[getall]\n".toList.take (n - 1) ∧
      Holds n (header ++
        (linesThatFit n header.length (plugins.map (pmLine stale))).flatten) buf' := by
  obtain ⟨buf₁, h₁, hb₁⟩ := Holds.put_nul hsize hpos
  obtain ⟨buf₂, h₂, hb₂⟩ := hb₁.strncat (t := "[on_data] [pm]\n[getall]\n".toList)
    (k := n - 0 - 1) (by decide) (by rw [List.length_nil]; omega)
  have hl : ∀ t ∈ plugins.map (pmLine stale), nul ∉ t := by
    intro t ht
    obtain ⟨h, -, rfl⟩ := List.mem_map.mp ht
    exact nul_not_mem_snprintf _ _
  obtain ⟨buf₃, h₃, hb₃⟩ := pmListLoop_holds hb₂ hl
  refine ⟨buf₃, _, ?_, rfl, hb₃⟩
  unfold pmListSerialize
  rw [h₁, Option.bind_some, hb₁.strlen_eq]
  simp only [Option.bind_some]
  rw [List.length_nil, h₂]
  exact h₃

/-- What the loop of `hk_get_list` appends depends on the length of the text before it. -/
theorem hkListLoop_holds (io : FloatText) (h : StrHeap) {slots : List (Option RegisteredType)}
    (hslots : none ∉ slots) (k : Nat) :
    ∃ ret added, ∀ s buf, s.length = k → Holds n s buf →
      ∃ buf', hkListLoop io h n slots buf = some (ret, buf') ∧ Holds n (s ++ added) buf' := by
  induction slots generalizing k with
  | nil => exact ⟨0, [], fun s buf _ hb => ⟨buf, rfl, by rwa [List.append_nil]⟩⟩
  | cons slot rest ih =>
    obtain ⟨reg, rfl⟩ := Option.ne_none_iff_exists'.mp fun e => hslots (e ▸ List.mem_cons_self)
    have hrest : none ∉ rest := fun hm => hslots (List.mem_cons_of_mem _ hm)
    set header := hkHeader reg.pluginId with hheader
    have hnh : nul ∉ header := nul_not_mem_snprintf _ _
    by_cases hfit : k + header.length ≥ n
    · refine ⟨-3, [], fun s buf hs hb => ⟨buf, ?_, by rwa [List.append_nil]⟩⟩
      subst hs
      unfold hkListLoop
      simp only [hb.strlen_eq, Option.bind_some, Option.elim_some, ← hheader, if_pos hfit]
    rcases hloop : serializeLoop io h reg.dInstance 1024 reg.typeInfo.fields
      (snprintf 1024 (reg.typeInfo.name ++ " ".toList)) with ⟨ret, typeLine⟩
    have hnt : nul ∉ typeLine := by
      have := HeapKit.nul_not_mem_serializeLoop io h reg.dInstance 1024 reg.typeInfo.fields
        (nul_not_mem_snprintf 1024 (reg.typeInfo.name ++ " ".toList))
      rwa [hloop] at this
    by_cases hret : ret ≠ 0
    · refine ⟨ret, header, fun s buf hs hb => ?_⟩
      subst hs
      obtain ⟨buf₁, h₁, hb₁⟩ := hb.strcat hnh (Nat.not_le.mp hfit)
      refine ⟨buf₁, ?_, hb₁⟩
      unfold hkListLoop
      simp only [hb.strlen_eq, Option.bind_some, Option.elim_some, ← hheader, if_neg hfit, h₁,
        hloop, if_pos hret]
    by_cases hline : k + header.length + typeLine.length + 1 ≥ n
    · refine ⟨-3, header, fun s buf hs hb => ?_⟩
      subst hs
      obtain ⟨buf₁, h₁, hb₁⟩ := hb.strcat hnh (Nat.not_le.mp hfit)
      refine ⟨buf₁, ?_, hb₁⟩
      unfold hkListLoop
      simp only [hb.strlen_eq, Option.bind_some, Option.elim_some, ← hheader, if_neg hfit, h₁,
        hloop, if_neg hret, hb₁.strlen_eq, List.length_append, if_pos hline]
    obtain ⟨ret', added, hadded⟩ := ih hrest (k + header.length + typeLine.length + 1)
    refine ⟨ret', header ++ typeLine ++ "\n".toList ++ added, fun s buf hs hb => ?_⟩
    subst hs
    obtain ⟨buf₁, h₁, hb₁⟩ := hb.strcat hnh (Nat.not_le.mp hfit)
    obtain ⟨buf₂, h₂, hb₂⟩ := hb₁.strcat hnt (by rw [List.length_append]; omega)
    obtain ⟨buf₃, h₃, hb₃⟩ := hb₂.strcat (t := "\n".toList) (by decide) (by
      simp only [List.length_append]
      exact Nat.not_le.mp hline)
    obtain ⟨buf₄, h₄, hb₄⟩ := hadded _ buf₃ (by
      simp only [List.length_append]
      rfl) hb₃
    refine ⟨buf₄, ?_, by simpa only [List.append_assoc] using hb₄⟩
    unfold hkListLoop
    simp only [hb.strlen_eq, Option.bind_some, Option.elim_some, ← hheader, if_neg hfit, h₁,
      hloop, if_neg hret, hb₁.strlen_eq, List.length_append, if_neg hline, h₂, h₃]
    exact h₄

/-- **`hk_get_list` appends.** In a buffer with room for the header, the text that it held stays in
front of the listing. -/
theorem hkGetList_holds (io : FloatText) {st : HeapKit.State} (hslots : none ∉ st.registry)
    {k : Nat} (hroom : k + 24 < n) :
    ∃ ret added, ∀ s buf, s.length = k → Holds n s buf →
      ∃ buf', hkGetList io st buf n = some (ret, buf') ∧
        Holds n (s ++ "[on_data] [hk]\n[getall]\n".toList ++ added) buf' := by
  obtain ⟨ret, added, hadded⟩ := @hkListLoop_holds n io st.strs _ hslots (k + 24)
  refine ⟨ret, added, fun s buf hs hb => ?_⟩
  obtain ⟨buf₁, h₁, hb₁⟩ := hb.strcat (t := "[on_data] [hk]\n[getall]\n".toList) (by decide) (by
    rw [hs]
    exact hroom)
  obtain ⟨buf₂, h₂, hb₂⟩ := hadded _ buf₁ (by
    rw [List.length_append, hs]
    rfl) hb₁
  refine ⟨buf₂, ?_, hb₂⟩
  unfold hkGetList
  rw [h₁]
  exact h₂

end Texts

/-! ## What the texts depend on -/

/-- For each previous content of the buffer the listing leaves the same C string, shorter than the
buffer. -/
def Determined (l : Listing) (c : Core) (n : Nat) : Prop :=
  ∃ text : CStr, text.length < n ∧ ∀ prev : List Char, prev.length = n →
    ∃ buf, l.call c prev n = some buf ∧ Holds n text buf

/-- A second call with the same buffer leaves the same text. -/
def Repeatable (l : Listing) (c : Core) (n : Nat) : Prop :=
  ∀ prev : List Char, prev.length = n → ∃ buf buf', l.call c prev n = some buf ∧
    l.call c buf n = some buf' ∧ cstr buf' = cstr buf

theorem Determined.repeatable {l : Listing} {c : Core} {n : Nat} (h : Determined l c n) :
    Repeatable l c n := by
  intro prev hprev
  obtain ⟨text, -, hcall⟩ := h
  obtain ⟨buf, h₁, hb₁⟩ := hcall prev hprev
  obtain ⟨buf', h₂, hb₂⟩ := hcall buf hb₁.size
  exact ⟨buf, buf', h₁, h₂, hb₂.text.trans hb₁.text.symm⟩

/-- Without a NUL in the buffer, `hk_get_list` reads past its end. -/
theorem hkGetList_unterminated (c : Core) (n : Nat) :
    gatewayHkGetList c (List.replicate n 'x') n = none := by
  have hnul : nul ∉ List.replicate n 'x' := fun h => absurd (List.eq_of_mem_replicate h) (by decide)
  unfold gatewayHkGetList hkGetList strcat strlen
  rw [if_neg hnul]
  rfl

/-- **Which listings depend on the core only.** For every listing, every core and every size of the
buffer from 1 on: whatever the buffer held, the listing leaves one and the same C string in it, and
a second call leaves it again, if and only if the listing is not `gateway_hk_get_list`. -/
theorem listing_determined_iff (l : Listing) (c : Core) {n : Nat} (hn : 1 ≤ n) :
    Determined l c n ∧ Repeatable l c n ↔ l ≠ .hkGetList := by
  constructor
  · rintro ⟨⟨text, -, hcall⟩, -⟩ rfl
    obtain ⟨buf, hbuf, -⟩ := hcall (List.replicate n 'x') List.length_replicate
    rw [show Listing.call .hkGetList = gatewayHkGetList from rfl, hkGetList_unterminated] at hbuf
    cases hbuf
  · intro hl
    suffices h : Determined l c n from ⟨h, h.repeatable⟩
    -- Each text is one that the buffer holds, so it is shorter than the buffer.
    have hzero : (List.replicate n nul).length = n := List.length_replicate
    cases l with
    | pmGetList =>
      obtain ⟨buf, header, -, hheader, hb⟩ := pmListSerialize_holds c.stale c.plugins hzero hn
      refine ⟨_, hb.length_lt, fun prev hprev => ?_⟩
      obtain ⟨buf', header', hcall, hheader', hb'⟩ :=
        pmListSerialize_holds c.stale c.plugins hprev hn
      rw [hheader, ← hheader']
      exact ⟨buf', hcall, hb'⟩
    | ebGetList =>
      obtain ⟨buf, -, hb⟩ := eventBusGetList_holds c.subs hzero hn
      exact ⟨_, hb.length_lt, fun prev hprev => eventBusGetList_holds c.subs hprev hn⟩
    | scGetList =>
      obtain ⟨buf, -, hb⟩ := schedulerGetList_holds c.timers hzero hn
      exact ⟨_, hb.length_lt, fun prev hprev => schedulerGetList_holds c.timers hprev hn⟩
    | hkGetList => exact absurd rfl hl

/-- A core without plugins, subscriptions, timers and types. -/
def emptyCore : Core where
  stale := fun _ => []
  plugins := []
  subs := []
  timers := []
  io := ⟨fun _ => [], fun _ => 0⟩
  hk := ⟨[], StrHeap.empty⟩

/-- The list of the timers in 80 bytes. -/
theorem listing_determined_iff_scheduler :
    Determined .scGetList emptyCore 80 ∧ Repeatable .scGetList emptyCore 80 :=
  (listing_determined_iff .scGetList emptyCore (by decide)).mpr (by decide)

/-- **A listing that grows.** In a zeroed buffer of 80 bytes `gateway_hk_get_list` leaves its
header, and a second call leaves it twice. -/
theorem hk_listing_grows :
    ∃ buf buf', gatewayHkGetList emptyCore (List.replicate 80 nul) 80 = some buf ∧
      cstr buf = "[on_data] [hk]\n[getall]\n".toList ∧
      gatewayHkGetList emptyCore buf 80 = some buf' ∧
      cstr buf' = "[on_data] [hk]\n[getall]\n[on_data] [hk]\n[getall]\n".toList ∧
      ¬ Determined .hkGetList emptyCore 80 ∧ ¬ Repeatable .hkGetList emptyCore 80 := by
  obtain ⟨buf, buf', h₁, t₁, h₂, t₂⟩ :
      ∃ buf buf', gatewayHkGetList emptyCore (List.replicate 80 nul) 80 = some buf ∧
        cstr buf = "[on_data] [hk]\n[getall]\n".toList ∧
        gatewayHkGetList emptyCore buf 80 = some buf' ∧
        cstr buf' = "[on_data] [hk]\n[getall]\n[on_data] [hk]\n[getall]\n".toList :=
    ⟨_, _, rfl, by decide, rfl, by decide⟩
  have hrep : ¬ Repeatable .hkGetList emptyCore 80 := by
    intro h
    obtain ⟨b, b', e₁, e₂, he⟩ := h _ List.length_replicate
    cases h₁.symm.trans e₁
    cases h₂.symm.trans e₂
    rw [t₁, t₂] at he
    exact absurd he (by decide)
  exact ⟨buf, buf', h₁, t₁, h₂, t₂, fun h => hrep h.repeatable, hrep⟩

end Gateway
end CoreCDTL
