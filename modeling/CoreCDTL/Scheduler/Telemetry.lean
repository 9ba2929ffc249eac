import CoreCDTL.Gateway.Dispatcher
import CoreCDTL.Gateway.Listings
import CoreCDTL.HeapKit.Fields
import CoreCDTL.Scheduler.Ownership

/-!
# The scheduler: its messages and its listing

The gateway can learn which timers there are in two ways: from the messages that
`scheduler_after_ms`, `scheduler_every_ms` and `scheduler_cancel` send, and from the text of
`scheduler_get_list`.

* **The texts.** `Message.text` is what the scheduler sends; `Gateway.timerLine` is a line of the
  listing.
* **The client** takes the words of a text apart. `receive` is its list of entries after a message,
  `readListing` are the entries of a listing. `receive_text` and `readListing_lines`: it reads the
  numbers that the scheduler printed.
* **The calls.** `telemetry`: one step is a call of one of the three functions, with its messages
  given to the client. `Call.run_turn` lists what a call does.
* `Agrees`: the client holds the entries of the listing. `telemetry_agrees_iff`: it does so after
  each call of a sequence exactly when each call is `Faithful`.
-/

namespace CoreCDTL
namespace Scheduler

open Dispatcher (safeBuf)
open Gateway (asInt asLongLong fmtPluginId fmtLld timerLine schedulerGetList schedulerGetList_holds)
open HeapKit (GATEWAY_DTLS_MSG_LEN)

/-! ## The texts -/

/-- The line that the scheduler passes to `gateway_msg_send`. -/
def Message.text : Message → CStr
  | subsAfter pluginId id ms =>
    snprintf GATEWAY_DTLS_MSG_LEN ("[subs_after] ".toList ++ fmtPluginId pluginId ++ " ".toList ++
      fmtD id ++ " ".toList ++ fmtLld ms ++ " [ms]".toList)
  | subsEvery pluginId id ms =>
    snprintf GATEWAY_DTLS_MSG_LEN ("[subs_every] ".toList ++ fmtPluginId pluginId ++ " ".toList ++
      fmtD id ++ " ".toList ++ fmtLld ms ++ " [ms]".toList)
  | cancel pluginId id =>
    snprintf GATEWAY_DTLS_MSG_LEN ("[cancel] ".toList ++ fmtPluginId pluginId ++ " ".toList ++
      fmtD id)

/-! ## The client -/

/-- What the client knows of a timer. -/
structure Entry where
  plugin : Int
  id : Int
  repeating : Bool
  ms : Int
  deriving DecidableEq, Repr

/-- The client's entries after a message from the gateway. -/
def receive (es : List Entry) (text : CStr) : List Entry :=
  match tokens isspace text with
  | [_, _, kind, plugin, id, ms, _] =>
    if kind = "[subs_after]".toList then ⟨strtol plugin, strtol id, false, strtol ms⟩ :: es
    else if kind = "[subs_every]".toList then ⟨strtol plugin, strtol id, true, strtol ms⟩ :: es
    else es
  | [_, _, kind, plugin, id] =>
    if kind = "[cancel]".toList then
      es.filter fun e => ¬ (e.plugin = strtol plugin ∧ e.id = strtol id)
    else es
  | _ => es

/-- The entries of the words of a listing, behind its header. -/
def readTimers : List CStr → List Entry
  | kind :: id :: plugin :: ms :: rest =>
    ⟨strtol plugin, strtol id, kind = "[every]".toList, strtol ms⟩ :: readTimers rest
  | _ => []

/-- The entries of a listing. -/
def readListing (text : CStr) : List Entry := readTimers ((tokens isspace text).drop 3)

/-- The entry of a timer. -/
def Timer.entry (t : Timer) : Entry where
  plugin := asInt t.pluginId
  id := t.id
  repeating := t.repeating
  ms := asLongLong t.intervalMs

/-- An `int`. -/
def IsInt (n : Int) : Prop := -(2 ^ 31) ≤ n ∧ n < 2 ^ 31

theorem isInt_bmod (n : Int) : IsInt (n.bmod (2 ^ 32)) := bmod_range n (by decide) (by decide)

/-! ## What the client reads -/

section Numbers

variable {n : Int}

theorem asLongLong_range (m : Nat) : -(2 ^ 63) ≤ asLongLong m ∧ asLongLong m < 2 ^ 63 := by
  unfold asLongLong
  exact bmod_range _ (by decide) (by decide)

/-- Two numbers of the width have two texts. -/
theorem bmod_inj {w m n : Nat} (hm : m < 2 ^ w) (hn : n < 2 ^ w)
    (h : (m : Int).bmod (2 ^ w) = (n : Int).bmod (2 ^ w)) : m = n := by
  have hmod : (m : Int) % ((2 ^ w : Nat) : Int) = (n : Int) % ((2 ^ w : Nat) : Int) := by
    rw [← Int.bmod_emod, h, Int.bmod_emod]
  rw [← Int.natCast_emod, ← Int.natCast_emod, Nat.mod_eq_of_lt hm, Nat.mod_eq_of_lt hn] at hmod
  exact Int.ofNat_inj.mp hmod

theorem asInt_inj {m n : Nat} (hm : m < 2 ^ 32) (hn : n < 2 ^ 32) (h : asInt m = asInt n) :
    m = n := by
  unfold asInt at h
  exact bmod_inj (w := 32) hm hn h

theorem asLongLong_zero : asLongLong 0 = 0 := by
  unfold asLongLong
  exact Int.zero_bmod

theorem asLongLong_eq_zero {m : Nat} (hm : m < 2 ^ 64) (h : asLongLong m = 0) : m = 0 := by
  have h := h.trans asLongLong_zero.symm
  unfold asLongLong at h
  exact bmod_inj (w := 64) hm (Nat.two_pow_pos 64) h

theorem strtol_int (h : IsInt n) : strtol (fmtD n) = n := by
  unfold IsInt at h
  exact strtol_fmtD (by omega) (by omega)

theorem fits_int (h : IsInt n) : Fits 11 (fmtD n) := by
  unfold IsInt at h
  exact fits_fmtD (by decide) (by omega)

theorem isInt_asInt (m : Nat) : IsInt (asInt m) := by
  unfold asInt
  exact isInt_bmod m

theorem strtol_fmtPluginId (pid : Nat) : strtol (fmtPluginId pid) = asInt pid :=
  strtol_int (isInt_asInt pid)

theorem fits_fmtPluginId (pid : Nat) : Fits 11 (fmtPluginId pid) := fits_int (isInt_asInt pid)

theorem strtol_fmtLld (m : Nat) : strtol (fmtLld m) = asLongLong m :=
  strtol_fmtD (asLongLong_range m).1 (asLongLong_range m).2

theorem fits_fmtLld (m : Nat) : Fits 20 (fmtLld m) := by
  have h := asLongLong_range m
  exact fits_fmtD (by decide) (by omega)

/-- The text of a number is one word. -/
theorem tokens_fmtD (n : Int) : tokens isspace (fmtD n) = [fmtD n] :=
  tokens_piece (fmtD_ne_nil n) fun _ => isspace_fmtD

end Numbers

/-- What goes to the dispatcher for a line that fits. -/
theorem tokens_safeBuf {k : Nat} {line : CStr} (h : Fits k line) (hk : k < 512) :
    tokens isspace (safeBuf .scheduler (snprintf GATEWAY_DTLS_MSG_LEN line)) =
      "[on_data]".toList :: "[scheduler]".toList :: tokens isspace line := by
  have hheader : "[on_data] [".toList ++ Dispatcher.ApiType.scheduler.apiName ++ "]\n".toList =
      "[on_data]".toList ++ ' ' :: ("[scheduler]".toList ++ ['\n']) := by decide
  have hbuf : Fits (22 + k + 1)
      ("[on_data]".toList ++ ' ' :: ("[scheduler]".toList ++ ['\n']) ++ line ++ ['\n']) :=
    Fits.append (Fits.append (by decide) h) (by decide)
  have hw₁ : tokens isspace "[on_data]".toList = ["[on_data]".toList] := by decide
  have hw₂ : tokens isspace "[scheduler]".toList = ["[scheduler]".toList] := by decide
  have hw₃ : tokens isspace [] = [] := rfl
  unfold safeBuf
  rw [GATEWAY_DTLS_MSG_LEN, h.snprintf_eq hk, hheader, hbuf.snprintf_eq (by omega)]
  simp only [List.append_assoc, List.cons_append, List.nil_append]
  rw [tokens_append_cons (by decide), tokens_append_cons (by decide),
    tokens_append_cons (by decide) line [], hw₁, hw₂, hw₃, List.append_nil]
  rfl

/-- A word and a blank in front of a text. -/
theorem tokens_word {w : CStr} (hw : tokens isspace w = [w]) (rest : CStr) :
    tokens isspace (w ++ (" ".toList ++ rest)) = w :: tokens isspace rest := by
  rw [show " ".toList ++ rest = ' ' :: rest from rfl, tokens_append_cons (by decide), hw]
  rfl

theorem fits_blank : Fits 1 " ".toList := by decide

/-- The words of a message of a creation. -/
theorem tokens_subs {kind : CStr} (hk : Fits 12 kind) (hw : tokens isspace kind = [kind])
    (pid : Nat) {id : Int} (hid : IsInt id) (ms : Nat) :
    tokens isspace (safeBuf .scheduler (snprintf GATEWAY_DTLS_MSG_LEN (kind ++ " ".toList ++
      fmtPluginId pid ++ " ".toList ++ fmtD id ++ " ".toList ++ fmtLld ms ++ " [ms]".toList))) =
      ["[on_data]".toList, "[scheduler]".toList, kind, fmtPluginId pid, fmtD id, fmtLld ms,
        "[ms]".toList] := by
  have hlast : Fits 5 " [ms]".toList := by decide
  have hfits : Fits (12 + 1 + 11 + 1 + 11 + 1 + 20 + 5) (kind ++ " ".toList ++ fmtPluginId pid ++
      " ".toList ++ fmtD id ++ " ".toList ++ fmtLld ms ++ " [ms]".toList) :=
    ((((((hk.append fits_blank).append (fits_fmtPluginId pid)).append fits_blank).append
      (fits_int hid)).append fits_blank).append (fits_fmtLld ms)).append hlast
  have hp : tokens isspace (fmtPluginId pid) = [fmtPluginId pid] := tokens_fmtD _
  have hm : tokens isspace (fmtLld ms) = [fmtLld ms] := tokens_fmtD _
  have hend : tokens isspace "[ms]".toList = ["[ms]".toList] := by decide
  rw [tokens_safeBuf hfits (by decide), show " [ms]".toList = " ".toList ++ "[ms]".toList by decide]
  simp only [List.append_assoc, tokens_word hw, tokens_word hp, tokens_word (tokens_fmtD id),
    tokens_word hm, hend]

/-- The words of a message of a cancellation. -/
theorem tokens_cancel (pid : Nat) {id : Int} (hid : IsInt id) :
    tokens isspace (safeBuf .scheduler (Message.text (.cancel pid id))) =
      ["[on_data]".toList, "[scheduler]".toList, "[cancel]".toList, fmtPluginId pid, fmtD id] := by
  have hk : Fits 8 "[cancel]".toList := by decide
  have hfits : Fits (8 + 1 + 11 + 1 + 11)
      ("[cancel]".toList ++ " ".toList ++ fmtPluginId pid ++ " ".toList ++ fmtD id) :=
    (((hk.append fits_blank).append (fits_fmtPluginId pid)).append fits_blank).append (fits_int hid)
  have hp : tokens isspace (fmtPluginId pid) = [fmtPluginId pid] := tokens_fmtD _
  have hw : tokens isspace "[cancel]".toList = ["[cancel]".toList] := by decide
  have htext : "[cancel] ".toList = "[cancel]".toList ++ " ".toList := by decide
  unfold Message.text
  rw [htext, tokens_safeBuf hfits (by decide)]
  simp only [List.append_assoc, tokens_word hw, tokens_word hp, tokens_fmtD]

theorem receive_creation {es : List Entry} {text a b kind plugin id ms c : CStr}
    (h : tokens isspace text = [a, b, kind, plugin, id, ms, c]) :
    receive es text =
      if kind = "[subs_after]".toList then ⟨strtol plugin, strtol id, false, strtol ms⟩ :: es
      else if kind = "[subs_every]".toList then ⟨strtol plugin, strtol id, true, strtol ms⟩ :: es
      else es := by
  unfold receive
  rw [h]

theorem receive_cancellation {es : List Entry} {text a b kind plugin id : CStr}
    (h : tokens isspace text = [a, b, kind, plugin, id]) :
    receive es text =
      if kind = "[cancel]".toList then
        es.filter fun e => ¬ (e.plugin = strtol plugin ∧ e.id = strtol id)
      else es := by
  unfold receive
  rw [h]

/-- **The client reads what was printed.** -/
theorem receive_text (es : List Entry) (pid : Nat) {id : Int} (hid : IsInt id) (ms : Nat) :
    receive es (safeBuf .scheduler (Message.text (.subsAfter pid id ms))) =
        ⟨asInt pid, id, false, asLongLong ms⟩ :: es ∧
      receive es (safeBuf .scheduler (Message.text (.subsEvery pid id ms))) =
        ⟨asInt pid, id, true, asLongLong ms⟩ :: es ∧
      receive es (safeBuf .scheduler (Message.text (.cancel pid id))) =
        es.filter fun e => ¬ (e.plugin = asInt pid ∧ e.id = id) := by
  refine ⟨?_, ?_, ?_⟩
  · have hwords := @tokens_subs "[subs_after]".toList (by decide) (by decide) pid id hid ms
    have htext : "[subs_after] ".toList = "[subs_after]".toList ++ " ".toList := by decide
    unfold Message.text
    rw [htext, receive_creation hwords, if_pos rfl, strtol_fmtPluginId, strtol_int hid,
      strtol_fmtLld]
  · have hwords := @tokens_subs "[subs_every]".toList (by decide) (by decide) pid id hid ms
    have htext : "[subs_every] ".toList = "[subs_every]".toList ++ " ".toList := by decide
    unfold Message.text
    rw [htext, receive_creation hwords, if_neg (by decide), if_pos rfl, strtol_fmtPluginId,
      strtol_int hid, strtol_fmtLld]
  · rw [receive_cancellation (tokens_cancel pid hid), if_pos rfl, strtol_fmtPluginId,
      strtol_int hid]

/-- The words of a line of the listing. -/
theorem tokens_timerLine {t : Timer} (hid : IsInt t.id) (rest : CStr) :
    tokens isspace (timerLine t ++ rest) =
      (if t.repeating then "[every]".toList else "[after]".toList) :: fmtD t.id ::
        fmtPluginId t.pluginId :: fmtLld t.intervalMs :: tokens isspace rest := by
  have key : ∀ kind : CStr, Fits 7 kind → tokens isspace kind = [kind] →
      tokens isspace (snprintf 128 (kind ++ " ".toList ++ fmtD t.id ++ " ".toList ++
        fmtPluginId t.pluginId ++ " ".toList ++ fmtLld t.intervalMs ++ "\n".toList) ++ rest) =
      kind :: fmtD t.id :: fmtPluginId t.pluginId :: fmtLld t.intervalMs :: tokens isspace rest := by
    intro kind hk hw
    have hlast : Fits 1 "\n".toList := by decide
    have hfits : Fits (7 + 1 + 11 + 1 + 11 + 1 + 20 + 1) (kind ++ " ".toList ++ fmtD t.id ++
        " ".toList ++ fmtPluginId t.pluginId ++ " ".toList ++ fmtLld t.intervalMs ++
        "\n".toList) :=
      ((((((hk.append fits_blank).append (fits_int hid)).append fits_blank).append
        (fits_fmtPluginId _)).append fits_blank).append (fits_fmtLld _)).append hlast
    have hp : tokens isspace (fmtPluginId t.pluginId) = [fmtPluginId t.pluginId] := tokens_fmtD _
    have hm : tokens isspace (fmtLld t.intervalMs) = [fmtLld t.intervalMs] := tokens_fmtD _
    have hnl : "\n".toList ++ rest = '\n' :: rest := rfl
    rw [hfits.snprintf_eq (by decide)]
    simp only [List.append_assoc, tokens_word hw, tokens_word hp, tokens_word (tokens_fmtD t.id),
      hnl, tokens_append_cons (d := isspace) (c := '\n') (by decide), hm]
    rfl
  have hevery : "[every] ".toList = "[every]".toList ++ " ".toList := by decide
  have hafter : "[after] ".toList = "[after]".toList ++ " ".toList := by decide
  unfold timerLine
  cases t.repeating with
  | true =>
    simp only [if_true, hevery]
    exact key _ (by decide) (by decide)
  | false =>
    simp only [Bool.false_eq_true, if_false, hafter]
    exact key _ (by decide) (by decide)

/-- **The listing is read back.** -/
theorem readListing_lines {timers : List Timer} (hid : ∀ t ∈ timers, IsInt t.id) :
    readListing ("[on_data] [scheduler]\n[getall]\n".toList ++ (timers.map timerLine).flatten) =
      timers.map Timer.entry := by
  have hheader : "[on_data] [scheduler]\n[getall]\n".toList =
      "[on_data] [scheduler]\n[getall]".toList ++ ['\n'] := by decide
  have hwords : tokens isspace "[on_data] [scheduler]\n[getall]".toList =
      ["[on_data]".toList, "[scheduler]".toList, "[getall]".toList] := by decide
  have hlines : readTimers (tokens isspace (timers.map timerLine).flatten) =
      timers.map Timer.entry := by
    clear hheader hwords
    induction timers with
    | nil => rfl
    | cons t timers ih =>
      have hkind : ∀ r : Bool, decide ((if r then "[every]".toList else "[after]".toList) =
          "[every]".toList) = r := by decide
      have hentry : (⟨strtol (fmtPluginId t.pluginId), strtol (fmtD t.id),
          decide ((if t.repeating then "[every]".toList else "[after]".toList) =
            "[every]".toList), strtol (fmtLld t.intervalMs)⟩ : Entry) = t.entry := by
        rw [strtol_fmtPluginId, strtol_int (hid t List.mem_cons_self), strtol_fmtLld, hkind]
        rfl
      rw [List.map_cons, List.flatten_cons, tokens_timerLine (hid t List.mem_cons_self), readTimers,
        ih fun u hu => hid u (List.mem_cons_of_mem t hu), List.map_cons, hentry]
  unfold readListing
  rw [hheader, List.append_assoc, List.singleton_append, tokens_append_cons (by decide), hwords]
  exact hlines

/-! ## The calls -/

/-- The arguments of a creation, by the types of the source. -/
structure CallArgs where
  pluginId : UInt32
  ms : UInt64
  cb : Nat
  user : Nat
  malloc : Bool
  now : Nat

def CallArgs.create (c : CallArgs) : CreateArgs :=
  ⟨c.pluginId.toNat, c.ms.toNat, c.cb, c.user, c.malloc, c.now⟩

/-- A call of the scheduler by a plugin. -/
inductive Call where
  | afterMs (c : CallArgs)
  | everyMs (c : CallArgs)
  | cancel (pluginId : UInt32) (id : Int32)

/-- The call up to its lock, or all of it. -/
def Call.label : Call → Label
  | afterMs c => .after c.create
  | everyMs c => .every c.create
  | cancel pluginId id => .cancel pluginId.toNat id.toInt

/-- A call from its start to its return, without another thread in between. -/
def Call.run (a : Call) (s : State) : Option State :=
  (step a.label s).bind fun s =>
    if s.creating = [] then some s else machine.run [.insert 0, .ret 0] s

/-- The scheduler and a client behind the gateway. -/
structure Session where
  sched : State
  client : List Entry

/-- The texts of the messages that are sent from `s` to `s'`. -/
def sentTexts (s s' : State) : List CStr :=
  (s'.messages.drop s.messages.length).map fun m => safeBuf .scheduler m.text

/-- A call; the client gets its messages. -/
def Session.step (a : Call) (x : Session) : Option Session :=
  (a.run x.sched).map fun s => ⟨s, (sentTexts x.sched s).foldl receive x.client⟩

def telemetry : Machine Session Call := ⟨Session.step⟩

/-- The client holds the entries of the listing, in every buffer that is large enough. -/
def Agrees (x : Session) : Prop :=
  ∃ size, ∀ buf, size ≤ buf.length →
    ∃ buf', schedulerGetList x.sched.timers buf buf.length = some buf' ∧
      ∀ e, e ∈ x.client ↔ e ∈ readListing (cstr buf')

/-- No call is in progress, the mutex is free, and the gateway is connected. -/
structure Idle (s : State) : Prop where
  creating : s.creating = []
  returning : s.returning = []
  free : s.LockFree
  connected : s.connected = true

/-- What a call does to the timers, the next id and the messages. -/
inductive CallTurn (s : State) : Call → State → Prop where
  /-- A creation that returns -1, or a cancellation of an id that is not positive. -/
  | refused {a : Call} (h : match a with
      | .afterMs c => c.cb = 0 ∨ c.malloc = false
      | .everyMs c => (c.cb = 0 ∨ c.ms.toNat = 0) ∨ c.malloc = false
      | .cancel _ id => id.toInt ≤ 0) : CallTurn s a s
  | after {c : CallArgs} {s' : State} (cb : c.cb ≠ 0) (node : c.malloc ≠ false)
    (timers : s'.timers =
      insertTimer { s.newTimer c.create false with seq := s.inserted } s.timers)
    (next : s'.nextId = (s.nextId + 1).bmod (2 ^ 32))
    (sent : s'.messages = s.messages ++ [.subsAfter c.pluginId.toNat s.nextId c.ms.toNat]) :
    CallTurn s (.afterMs c) s'
  | every {c : CallArgs} {s' : State}
    (timers : s'.timers =
      insertTimer { s.newTimer c.create true with seq := s.inserted } s.timers)
    (next : s'.nextId = (s.nextId + 1).bmod (2 ^ 32))
    (sent : s'.messages = s.messages ++ [.subsEvery c.pluginId.toNat s.nextId c.ms.toNat]) :
    CallTurn s (.everyMs c) s'
  | cancel {pid : UInt32} {id : Int32} {s' : State} {t : Timer} {rest : List Timer}
    (pos : 0 < id.toInt) (found : removeTimer pid.toNat id.toInt s.timers = some (t, rest))
    (timers : s'.timers = rest) (next : s'.nextId = s.nextId) (sent : s'.messages = s.messages) :
    CallTurn s (.cancel pid id) s'
  | missed {pid : UInt32} {id : Int32} {s' : State} (pos : 0 < id.toInt)
    (found : removeTimer pid.toNat id.toInt s.timers = none)
    (timers : s'.timers = s.timers) (next : s'.nextId = s.nextId)
    (sent : s'.messages = s.messages ++ [.cancel pid.toNat id.toInt]) :
    CallTurn s (.cancel pid id) s'

section Calls

variable {s : State} (hi : Idle s)
include hi

/-- A creation that has its node links it and sends its message. -/
theorem Idle.created (c : CreateArgs) (repeating : Bool) :
    ∃ s', (if (s.draw c repeating).creating = [] then some (s.draw c repeating)
        else machine.run [.insert 0, .ret 0] (s.draw c repeating)) = some s' ∧ Idle s' ∧
      s'.timers = insertTimer { s.newTimer c repeating with seq := s.inserted } s.timers ∧
      s'.nextId = (s.nextId + 1).bmod (2 ^ 32) ∧
      s'.messages = s.messages ++ [(⟨s.newTimer c repeating, c.ms⟩ : Creation).message] := by
  set cr : Creation := ⟨s.newTimer c repeating, c.ms⟩ with hcr
  set s₁ := s.draw c repeating with hs₁
  have hcreating : s₁.creating = [cr] := by
    rw [hs₁, State.draw, hi.creating]
    rfl
  set s₂ : State := { s₁.link cr.timer with
    creating := s₁.creating.eraseIdx 0, returning := s₁.returning ++ [cr] } with hs₂
  have h₁ : machine.step (.insert 0) s₁ = some s₂ := by
    have hat : s₁.creating[0]? = some cr := by rw [hcreating]; rfl
    have hfree : s₁.LockFree := hi.free
    simp only [machine, step, hat, if_pos hfree, hs₂]
  have hreturning : s₂.returning = [cr] := by
    rw [hs₂]
    show s.returning ++ [cr] = [cr]
    rw [hi.returning]
    rfl
  have hsend : s₂.send cr.message = { s₂ with messages := s.messages ++ [cr.message] } :=
    if_pos hi.connected
  set s₃ : State := { s₂ with
    messages := s.messages ++ [cr.message]
    returning := s₂.returning.eraseIdx 0
    returned := cr.timer.toTimerInfo :: s₂.returned } with hs₃
  have h₂ : machine.step (.ret 0) s₂ = some s₃ := by
    have hat : s₂.returning[0]? = some cr := by rw [hreturning]; rfl
    simp only [machine, step, hat, hsend, hs₃]
  refine ⟨s₃, ?_, ⟨?_, ?_, hi.free, hi.connected⟩, rfl, rfl, rfl⟩
  · rw [if_neg (by rw [hcreating]; exact List.cons_ne_nil _ _)]
    exact Machine.run_cons_some.mpr ⟨s₂, h₁, Machine.run_cons_some.mpr ⟨s₃, h₂, rfl⟩⟩
  · show s₁.creating.eraseIdx 0 = []
    rw [hcreating]
    rfl
  · show s₂.returning.eraseIdx 0 = []
    rw [hreturning]
    rfl

/-- **Every call goes through**, and ends with no call in progress. -/
theorem Idle.call (a : Call) : ∃ s', a.run s = some s' ∧ Idle s' ∧ CallTurn s a s' := by
  have bound : ∀ s₁, step a.label s = some s₁ → a.run s =
      if s₁.creating = [] then some s₁ else machine.run [.insert 0, .ret 0] s₁ := by
    intro s₁ h
    unfold Call.run
    rw [h]
    rfl
  have at_once : ∀ s', step a.label s = some s' → s'.creating = [] → a.run s = some s' :=
    fun s' h hc => (bound s' h).trans (if_pos hc)
  cases a with
  | afterMs c =>
    by_cases hcb : c.cb = 0
    · have hs : schedulerAfterMs c.create s = s := if_pos hcb
      exact ⟨s, at_once s (congrArg some hs) hi.creating, hi, .refused (.inl hcb)⟩
    by_cases hnode : c.malloc = false
    · have hs : schedulerAfterMs c.create s = s := (if_neg hcb).trans (if_pos hnode)
      exact ⟨s, at_once s (congrArg some hs) hi.creating, hi, .refused (.inr hnode)⟩
    have hs : schedulerAfterMs c.create s = s.draw c.create false :=
      (if_neg hcb).trans (if_neg hnode)
    obtain ⟨s', hrun, hidle, htimers, hnext, hsent⟩ := hi.created c.create false
    exact ⟨s', (bound _ (congrArg some hs)).trans hrun, hidle,
      .after hcb hnode htimers hnext hsent⟩
  | everyMs c =>
    by_cases hcb : c.cb = 0 ∨ c.ms.toNat = 0
    · have hs : schedulerEveryMs c.create s = s := if_pos hcb
      exact ⟨s, at_once s (congrArg some hs) hi.creating, hi, .refused (.inl hcb)⟩
    by_cases hnode : c.malloc = false
    · have hs : schedulerEveryMs c.create s = s := (if_neg hcb).trans (if_pos hnode)
      exact ⟨s, at_once s (congrArg some hs) hi.creating, hi, .refused (.inr hnode)⟩
    have hs : schedulerEveryMs c.create s = s.draw c.create true :=
      (if_neg hcb).trans (if_neg hnode)
    obtain ⟨s', hrun, hidle, htimers, hnext, hsent⟩ := hi.created c.create true
    exact ⟨s', (bound _ (congrArg some hs)).trans hrun, hidle, .every htimers hnext hsent⟩
  | cancel pid id =>
    have hstep : step (.cancel pid.toNat id.toInt) s =
        some (schedulerCancel pid.toNat id.toInt s).2 := if_pos hi.free
    unfold schedulerCancel at hstep
    by_cases hid : id.toInt ≤ 0
    · rw [if_pos hid] at hstep
      exact ⟨s, at_once s hstep hi.creating, hi, .refused hid⟩
    have hpos : 0 < id.toInt := Int.not_le.mp hid
    rw [if_neg hid] at hstep
    cases hfound : removeTimer pid.toNat id.toInt s.timers with
    | some p =>
      obtain ⟨t, rest⟩ := p
      rw [hfound] at hstep
      exact ⟨_, at_once _ hstep hi.creating, ⟨hi.creating, hi.returning, hi.free, hi.connected⟩,
        .cancel hpos hfound rfl rfl rfl⟩
    | none =>
      have hsend : s.send (.cancel pid.toNat id.toInt) =
          { s with messages := s.messages ++ [.cancel pid.toNat id.toInt] } := if_pos hi.connected
      rw [hfound, hsend] at hstep
      exact ⟨_, at_once _ hstep hi.creating, ⟨hi.creating, hi.returning, hi.free, hi.connected⟩,
        .missed hpos hfound rfl rfl rfl⟩

end Calls

/-! ## The client and the listing -/

/-- The entries of the timers. -/
def State.entries (s : State) : List Entry := s.timers.map Timer.entry

/-- What the calls keep. -/
structure Sound (s : State) : Prop where
  idle : Idle s
  next : IsInt s.nextId
  ids : ∀ t ∈ s.timers, IsInt t.id
  plugins : ∀ t ∈ s.timers, t.pluginId < 2 ^ 32
  once : ∀ t ∈ s.timers, t.repeating = false → t.intervalMs = 0

/-- The call tells the client what it does to the listing: a one-shot creation fails or has
`ms = 0`, and a cancellation finds no timer, or leaves one in the list with the same entry. -/
def Faithful (s : State) : Call → Prop
  | .afterMs c => c.cb = 0 ∨ c.malloc = false ∨ c.ms = 0
  | .everyMs _ => True
  | .cancel pid id => 0 < id.toInt → ∀ t rest,
    removeTimer pid.toNat id.toInt s.timers = some (t, rest) → ∃ u ∈ rest, u.entry = t.entry

theorem agrees_iff {x : Session} (hid : ∀ t ∈ x.sched.timers, IsInt t.id) :
    Agrees x ↔ ∀ e, e ∈ x.client ↔ e ∈ x.sched.entries := by
  set full : CStr := "[on_data] [scheduler]\n[getall]\n".toList ++
    (x.sched.timers.map timerLine).flatten with hfull
  have listed : ∀ buf : List Char, full.length < buf.length →
      ∃ buf', schedulerGetList x.sched.timers buf buf.length = some buf' ∧
        readListing (cstr buf') = x.sched.entries := by
    intro buf hlen
    obtain ⟨buf', hcall, hb⟩ := @schedulerGetList_holds buf.length buf x.sched.timers rfl
      (by omega)
    refine ⟨buf', hcall, ?_⟩
    rw [hb.text, ← hfull, List.take_of_length_le (by omega)]
    exact readListing_lines hid
  constructor
  · rintro ⟨size, h⟩
    have hlen : (List.replicate (size + full.length + 1) nul).length = size + full.length + 1 :=
      List.length_replicate
    obtain ⟨buf', hcall, hread⟩ := listed (List.replicate (size + full.length + 1) nul) (by omega)
    obtain ⟨buf'', hcall', hagree⟩ := h (List.replicate (size + full.length + 1) nul) (by omega)
    cases hcall.symm.trans hcall'
    rwa [hread] at hagree
  · intro h
    refine ⟨full.length + 1, fun buf hlen => ?_⟩
    obtain ⟨buf', hcall, hread⟩ := listed buf hlen
    exact ⟨buf', hcall, by rwa [hread]⟩

/-- The client after a call with one message. -/
theorem foldl_receive_one {s s' : State} {m : Message} (h : s'.messages = s.messages ++ [m])
    (es : List Entry) :
    (sentTexts s s').foldl receive es = receive es (safeBuf .scheduler m.text) := by
  unfold sentTexts
  rw [h, List.drop_left, List.map_cons, List.map_nil, List.foldl_cons, List.foldl_nil]

/-- The client after a call without a message. -/
theorem foldl_receive_none {s s' : State} (h : s'.messages = s.messages) (es : List Entry) :
    (sentTexts s s').foldl receive es = es := by
  unfold sentTexts
  rw [h, List.drop_length, List.map_nil, List.foldl_nil]

theorem Sound.turn {s s' : State} {a : Call} (hs : Sound s) (hi : Idle s')
    (ht : CallTurn s a s') : Sound s' := by
  have linked : ∀ (c : CallArgs) (r : Bool),
      s'.timers = insertTimer { s.newTimer c.create r with seq := s.inserted } s.timers →
      s'.nextId = (s.nextId + 1).bmod (2 ^ 32) → Sound s' := by
    intro c r htimers hnext
    have mem : ∀ t ∈ s'.timers,
        t = { s.newTimer c.create r with seq := s.inserted } ∨ t ∈ s.timers := by
      intro t h
      rw [htimers] at h
      exact mem_insertTimer.mp h
    refine ⟨hi, ?_, fun t h => ?_, fun t h => ?_, fun t h hr => ?_⟩
    · rw [hnext]
      exact isInt_bmod _
    · rcases mem t h with rfl | h
      · exact hs.next
      · exact hs.ids t h
    · rcases mem t h with rfl | h
      · exact c.pluginId.toNat_lt
      · exact hs.plugins t h
    · rcases mem t h with rfl | h
      · replace hr : r = false := hr
        subst hr
        rfl
      · exact hs.once t h hr
  cases ht with
  | refused => exact hs
  | @after c _ _ _ timers next _ => exact linked c false timers next
  | @every c _ timers next _ => exact linked c true timers next
  | cancel _ found timers next _ =>
    obtain ⟨xs, ys, hl, rfl, -⟩ := removeTimer_some found
    have sub : ∀ t ∈ s'.timers, t ∈ s.timers := by
      intro t h
      rw [timers] at h
      rw [hl]
      rcases List.mem_append.mp h with h | h
      · exact List.mem_append_left _ h
      · exact List.mem_append_right _ (List.mem_cons_of_mem _ h)
    exact ⟨hi, next ▸ hs.next, fun t h => hs.ids t (sub t h), fun t h => hs.plugins t (sub t h),
      fun t h => hs.once t (sub t h)⟩
  | missed _ _ timers next _ =>
    exact ⟨hi, next ▸ hs.next, timers ▸ hs.ids, timers ▸ hs.plugins, timers ▸ hs.once⟩

theorem mem_entries_insert {s s' : State} {t : Timer} (h : s'.timers = insertTimer t s.timers)
    (e : Entry) : e ∈ s'.entries ↔ e = t.entry ∨ e ∈ s.entries := by
  unfold State.entries
  rw [h, List.mem_map]
  simp only [mem_insertTimer, List.mem_map]
  constructor
  · rintro ⟨u, rfl | hu, rfl⟩
    · exact .inl rfl
    · exact .inr ⟨u, hu, rfl⟩
  · rintro (rfl | ⟨u, hu, rfl⟩)
    · exact ⟨t, .inl rfl, rfl⟩
    · exact ⟨u, .inr hu, rfl⟩

section Turns

variable {s s' : State} {es : List Entry} (hs : Sound s) (hes : ∀ e, e ∈ es ↔ e ∈ s.entries)
include hs hes

/-- The client gets `ms`, the listing shows `interval_ms`, which is 0. -/
theorem Sound.agrees_after {c : CallArgs}
    (timers : s'.timers =
      insertTimer { s.newTimer c.create false with seq := s.inserted } s.timers)
    (sent : s'.messages = s.messages ++ [.subsAfter c.pluginId.toNat s.nextId c.ms.toNat]) :
    (∀ e, e ∈ (sentTexts s s').foldl receive es ↔ e ∈ s'.entries) ↔ c.ms = 0 := by
  have hentry : ({ s.newTimer c.create false with seq := s.inserted } : Timer).entry =
      ⟨asInt c.pluginId.toNat, s.nextId, false, asLongLong 0⟩ := rfl
  have honce : ∀ e ∈ s.entries, e.repeating = false → e.ms = 0 := by
    intro e he hr
    obtain ⟨t, ht, rfl⟩ := List.mem_map.mp he
    rw [Timer.entry, hs.once t ht hr]
    exact asLongLong_zero
  rw [foldl_receive_one sent, (receive_text es _ hs.next _).1]
  constructor
  · intro h
    have hms : asLongLong c.ms.toNat = 0 := by
      rcases (mem_entries_insert timers _).mp ((h _).mp List.mem_cons_self) with he | he
      · rw [hentry, Entry.mk.injEq] at he
        exact he.2.2.2.trans asLongLong_zero
      · exact honce _ he rfl
    exact UInt64.toNat_inj.mp (asLongLong_eq_zero c.ms.toNat_lt hms)
  · intro h e
    rw [mem_entries_insert timers, hentry, List.mem_cons, hes e, h, UInt64.toNat_zero]

/-- A repeating timer is told as it is listed. -/
theorem Sound.agrees_every {c : CallArgs}
    (timers : s'.timers =
      insertTimer { s.newTimer c.create true with seq := s.inserted } s.timers)
    (sent : s'.messages = s.messages ++ [.subsEvery c.pluginId.toNat s.nextId c.ms.toNat]) (e : Entry) :
    e ∈ (sentTexts s s').foldl receive es ↔ e ∈ s'.entries := by
  have hentry : ({ s.newTimer c.create true with seq := s.inserted } : Timer).entry =
      ⟨asInt c.pluginId.toNat, s.nextId, true, asLongLong c.ms.toNat⟩ := rfl
  rw [foldl_receive_one sent, (receive_text es _ hs.next _).2.1, mem_entries_insert timers, hentry,
    List.mem_cons, hes e]

omit hs in
/-- Nothing is sent: the client keeps the entry of the timer that is gone. -/
theorem agrees_cancel {pid : Nat} {id : Int} {t : Timer} {rest : List Timer}
    (found : removeTimer pid id s.timers = some (t, rest)) (timers : s'.timers = rest)
    (sent : s'.messages = s.messages) :
    (∀ e, e ∈ (sentTexts s s').foldl receive es ↔ e ∈ s'.entries) ↔
      ∃ u ∈ rest, u.entry = t.entry := by
  obtain ⟨xs, ys, hl, rfl, -⟩ := removeTimer_some found
  have hold : ∀ e, e ∈ s.entries ↔ e = t.entry ∨ e ∈ s'.entries := by
    intro e
    unfold State.entries
    rw [hl, timers]
    simp only [List.map_append, List.map_cons, List.mem_append, List.mem_cons]
    exact or_left_comm
  have hgone : (∃ u ∈ xs ++ ys, u.entry = t.entry) ↔ t.entry ∈ s'.entries := by
    unfold State.entries
    rw [timers, List.mem_map]
  rw [foldl_receive_none sent, hgone]
  constructor
  · exact fun h => (h _).mp ((hes _).mpr ((hold _).mpr (.inl rfl)))
  · intro h e
    rw [hes e, hold e]
    refine ⟨?_, .inr⟩
    rintro (rfl | he)
    · exact h
    · exact he

/-- A cancellation that finds nothing makes the client remove what it does not have. -/
theorem Sound.agrees_missed {pid : UInt32} {id : Int32}
    (found : removeTimer pid.toNat id.toInt s.timers = none) (timers : s'.timers = s.timers)
    (sent : s'.messages = s.messages ++ [.cancel pid.toNat id.toInt]) (e : Entry) :
    e ∈ (sentTexts s s').foldl receive es ↔ e ∈ s'.entries := by
  have hid : IsInt id.toInt := ⟨id.le_toInt, id.toInt_lt⟩
  have hentries : s'.entries = s.entries := by rw [State.entries, timers, State.entries]
  rw [foldl_receive_one sent, (receive_text es _ hid 0).2.2, List.mem_filter, hes e, hentries,
    and_iff_left_iff_imp]
  intro he
  obtain ⟨t, ht, rfl⟩ := List.mem_map.mp he
  rw [decide_eq_true_eq]
  rintro ⟨hp, hi⟩
  have hpid : t.pluginId = pid.toNat := asInt_inj (hs.plugins t ht) pid.toNat_lt hp
  exact removeTimer_none.mp found t ht ⟨hi, hpid⟩

/-- **One call.** Where the client holds the entries, it holds those after the call exactly when the
call is faithful. -/
theorem Sound.agrees_turn {a : Call} (ht : CallTurn s a s') :
    (∀ e, e ∈ (sentTexts s s').foldl receive es ↔ e ∈ s'.entries) ↔ Faithful s a := by
  cases ht with
  | refused h =>
    rw [foldl_receive_none rfl]
    refine iff_of_true hes ?_
    cases a with
    | afterMs c => exact h.imp_right .inl
    | everyMs c => trivial
    | cancel pid id => exact fun hpos => absurd h (Int.not_le.mpr hpos)
  | after cb node timers next sent =>
    rw [hs.agrees_after hes timers sent]
    exact ⟨fun h => .inr (.inr h), fun h => (h.resolve_left cb).resolve_left node⟩
  | every timers next sent => exact iff_of_true (hs.agrees_every hes timers sent) trivial
  | cancel pos found timers next sent =>
    rw [agrees_cancel hes found timers sent]
    refine ⟨fun h _ t' rest' found' => ?_, fun h => h pos _ _ found⟩
    cases found.symm.trans found'
    exact h
  | missed pos found timers next sent =>
    refine iff_of_true (hs.agrees_missed hes found timers sent) fun _ t rest h => ?_
    rw [found] at h
    cases h

end Turns

/-- The id of the next timer is an `int`. -/
theorem Reach.nextId {s : State} (hs : Reach s) : IsInt s.nextId := by
  have hkeeps : machine.Keeps (fun _ _ => True) fun s => IsInt s.nextId := by
    intro s a s' hi _ h
    cases step_turn h with
    | after | every => exact isInt_bmod _
    | _ => exact hi
  refine hkeeps.reach (fun s h => ?_) hs
  rw [h]
  exact ⟨by decide, by decide⟩

/-- A call by a plugin goes through. -/
theorem Sound.step {x : Session} (hs : Sound x.sched) (a : Call) :
    ∃ s', telemetry.step a x = some ⟨s', (sentTexts x.sched s').foldl receive x.client⟩ ∧
      Sound s' ∧ CallTurn x.sched a s' := by
  obtain ⟨s', hrun, hi, ht⟩ := hs.idle.call a
  refine ⟨s', ?_, hs.turn hi ht, ht⟩
  show (a.run x.sched).map _ = _
  rw [hrun]
  rfl

/-- Every run of calls keeps the scheduler sound. -/
theorem sound_keeps : telemetry.Keeps (fun _ _ => True) fun x => Sound x.sched := by
  intro x a x' hx _ hstep
  obtain ⟨s', hstep', hs', -⟩ := hx.step a
  cases hstep'.symm.trans hstep
  exact hs'

theorem Sound.start {s : State} (hs : Reach s) (hi : Idle s) (hempty : s.timers = []) :
    Sound s := by
  refine ⟨hi, hs.nextId, ?_, ?_, ?_⟩ <;> rw [hempty] <;> exact fun t ht => nomatch ht

/-- **Messages and listing.** From every reachable state without timers, with no call in progress
and the gateway connected, for every sequence of calls: a client that starts empty and follows the
messages holds exactly the entries of the listing after each call, if and only if every call is
faithful in its state. -/
theorem telemetry_agrees_iff {s₀ : State} (hs : Reach s₀) (hi : Idle s₀) (hempty : s₀.timers = [])
    (calls : List Call) :
    (∀ pre, pre <+: calls → ∃ x, telemetry.run pre ⟨s₀, []⟩ = some x ∧ Agrees x) ↔
      telemetry.Meets (fun x a => Faithful x.sched a) calls ⟨s₀, []⟩ := by
  have hsound : Sound s₀ := .start hs hi hempty
  have hstart : ∀ e, e ∈ ([] : List Entry) ↔ e ∈ s₀.entries := by
    intro e
    rw [State.entries, hempty]
    rfl
  have one : ∀ (x : Session) (a : Call),
      (Sound x.sched ∧ ∀ e, e ∈ x.client ↔ e ∈ x.sched.entries) →
      ((∃ x', telemetry.step a x = some x' ∧ Agrees x') ↔ Faithful x.sched a) := by
    rintro x a ⟨hx, hes⟩
    obtain ⟨s', hstep, hs', ht⟩ := hx.step a
    rw [← hx.agrees_turn hes ht]
    constructor
    · rintro ⟨x', hx', hagrees⟩
      cases hstep.symm.trans hx'
      exact (agrees_iff hs'.ids).mp hagrees
    · exact fun h => ⟨_, hstep, (agrees_iff hs'.ids).mpr h⟩
  refine Machine.runs_iff_meets (I := fun x => Sound x.sched ∧
    ∀ e, e ∈ x.client ↔ e ∈ x.sched.entries) ?_ one ⟨hsound, hstart⟩
    ((agrees_iff hsound.ids).mpr hstart)
  rintro x a x' ⟨hx, hes⟩ hf hstep
  obtain ⟨s', hstep', hs', ht⟩ := hx.step a
  cases hstep'.symm.trans hstep
  exact ⟨hs', (hx.agrees_turn hes ht).mpr hf⟩

/-- At program start, with the gateway connected. -/
def connectedState : State := { init with connected := true }

theorem connectedState_reach : Reach connectedState := ⟨init, [.connect true], rfl, rfl⟩

theorem connectedState_idle : Idle connectedState := ⟨rfl, rfl, by decide, rfl⟩

/-- A repeating timer, a one-shot timer without a delay and a cancellation of no timer. -/
def toldCalls : List Call :=
  [.everyMs ⟨1, 10, 1, 0, true, 0⟩, .afterMs ⟨2, 0, 1, 0, true, 0⟩, .cancel 1 0]

/-- The client follows them. -/
theorem telemetry_agrees_iff_told :
    ∃ x, telemetry.run toldCalls ⟨connectedState, []⟩ = some x ∧ Agrees x := by
  have hfollows := (telemetry_agrees_iff connectedState_reach connectedState_idle rfl
    toldCalls).mpr ⟨trivial, fun _ _ => ⟨.inr (.inr rfl), fun _ _ =>
      ⟨fun h => absurd h (by decide), fun _ _ => trivial⟩⟩⟩
  exact hfollows toldCalls (List.prefix_refl _)

/-- **What the client misses.** A cancelled timer is gone from the listing, but the client keeps it;
and a one-shot timer with a delay of 100 ms is listed with 0. -/
theorem cancelled_timer_told :
    (∃ x, telemetry.run [.everyMs ⟨1, 10, 1, 0, true, 0⟩, .cancel 1 1] ⟨connectedState, []⟩ =
        some x ∧ x.client = [⟨1, 1, true, 10⟩] ∧ x.sched.entries = [] ∧ ¬ Agrees x) ∧
      ∃ x, telemetry.run [.afterMs ⟨1, 100, 1, 0, true, 0⟩] ⟨connectedState, []⟩ = some x ∧
        x.client = [⟨1, 1, false, 100⟩] ∧ x.sched.entries = [⟨1, 1, false, 0⟩] ∧ ¬ Agrees x := by
  have missed : ∀ {x : Session} {calls : List Call} {e : Entry},
      telemetry.run calls ⟨connectedState, []⟩ = some x → e ∈ x.client → e ∉ x.sched.entries →
      ¬ Agrees x := by
    intro x calls e hrun hin hout h
    have hs := sound_keeps.run_all (.start connectedState_reach connectedState_idle rfl) hrun
    exact hout (((agrees_iff hs.ids).mp h e).mp hin)
  constructor
  · obtain ⟨x, hx⟩ : ∃ x, x = (telemetry.run [.everyMs ⟨1, 10, 1, 0, true, 0⟩, .cancel 1 1]
      ⟨connectedState, []⟩).getD ⟨connectedState, []⟩ := ⟨_, rfl⟩
    have hrun : telemetry.run [.everyMs ⟨1, 10, 1, 0, true, 0⟩, .cancel 1 1]
        ⟨connectedState, []⟩ = some x := by
      rw [hx]
      rfl
    have hclient : x.client = [⟨1, 1, true, 10⟩] := by
      rw [hx]
      decide +kernel
    have hlisted : x.sched.entries = [] := by
      rw [hx]
      decide +kernel
    refine ⟨x, hrun, hclient, hlisted, missed hrun (e := ⟨1, 1, true, 10⟩) ?_ ?_⟩
    · rw [hclient]
      exact List.mem_singleton_self _
    · rw [hlisted]
      exact List.not_mem_nil
  · obtain ⟨x, hx⟩ : ∃ x, x = (telemetry.run [.afterMs ⟨1, 100, 1, 0, true, 0⟩]
      ⟨connectedState, []⟩).getD ⟨connectedState, []⟩ := ⟨_, rfl⟩
    have hrun : telemetry.run [.afterMs ⟨1, 100, 1, 0, true, 0⟩] ⟨connectedState, []⟩ =
        some x := by
      rw [hx]
      rfl
    have hclient : x.client = [⟨1, 1, false, 100⟩] := by
      rw [hx]
      decide +kernel
    have hlisted : x.sched.entries = [⟨1, 1, false, 0⟩] := by
      rw [hx]
      decide +kernel
    refine ⟨x, hrun, hclient, hlisted, missed hrun (e := ⟨1, 1, false, 100⟩) ?_ ?_⟩
    · rw [hclient]
      exact List.mem_singleton_self _
    · rw [hlisted]
      decide

end Scheduler
end CoreCDTL
