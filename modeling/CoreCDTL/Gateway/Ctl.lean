import CoreCDTL.Gateway.Lib
import CoreCDTL.Lib.Machine

/-!
# The control socket (`core/core_ctl.c`)

`handle_ctl_command` starts, stops, restarts and reports the gateway. `core_ctl.c` has a static
variable `gateway_is_alive` of its own (`Ctl.gatewayIsAlive`), which nothing sets: the commands
always see a gateway that is not alive.

* **The abstract view.** The gateway runs from a successful start or restart to the next successful
  stop (`runningAfter`). `Right` says what the commands should answer in terms of this alone.
* **Refinement.** `Session` runs the code beside the abstract view; `Inv` ties the two: the flags of
  `gateway.c` are the abstract view, the flag of `core_ctl.c` stays 0.
* `right_iff`: the commands of a run are all answered right if and only if no start, stop or status
  comes while the gateway is alive.
-/

namespace CoreCDTL
namespace Gateway

/-! ## Parsing -/

/-- `sscanf(command, "%127s %63s", lib, action)` and the loop that lowers `action`. -/
def parseCommand (command : CStr) : Option (CStr × CStr) :=
  match scanWord 127 command with
  | none => none
  | some (lib, rest) =>
    match scanWord 63 rest with
    | none => none
    | some (action, _) => some (lib, action.map tolower)

/-- `lib_path`. -/
def libPath (lib : CStr) : CStr := snprintf 256 ("./gateways/".toList ++ lib ++ ".so".toList)

/-- The formatted response of `status`. -/
def statusText (path status : CStr) : CStr :=
  "Status of '".toList ++ path ++ "': ".toList ++ status

/-- The formatted response of the others: `Started '%s'` or `Failed to start '%s': %s`. -/
def failText (verb path : CStr) : CStr := "Failed to ".toList ++ verb ++ " '".toList ++ path ++ ['\'']

def doneText (verb path : CStr) : CStr := verb ++ " '".toList ++ path ++ ['\'']

/-! ## Commands -/

/-- The globals: those of `gateway.c`, and the `gateway_is_alive` of `core_ctl.c`. -/
structure Ctl where
  gateway : State
  gatewayIsAlive : Bool
  deriving DecidableEq, Repr

/-- At program start. -/
def Ctl.zero : Ctl := ⟨State.zero, false⟩

/-- `gateway_init_lib` and, after it, `gateway_start_lib`. -/
def initAndStart (l : Load) (c : Ctl) : Option (Int × Ctl) :=
  match gatewayInitLib l c.gateway with
  | none => none
  | some (res, g) =>
    if res = GATEWAY_OK then (gatewayStartLib g).map fun g => (res, { c with gateway := g })
    else some (res, { c with gateway := g })

/-- `handle_ctl_command`: the return value, the response in `response[resp_size]` and the state. -/
def handleCtlCommand (command : CStr) (respSize : Nat) (l : Load) (c : Ctl) :
    Option (Int × CStr × Ctl) :=
  match parseCommand command with
  | none => some (-1, snprintf respSize "Invalid command format.".toList, c)
  | some (lib, action) =>
    let path := libPath lib
    if action = "start".toList then
      (if c.gatewayIsAlive = false then initAndStart l c else some (GATEWAY_OK, c)).map fun p =>
        (p.1, snprintf respSize (if p.1 = GATEWAY_OK then doneText "Started".toList path
          else failText "start".toList path ++ ": ".toList ++ gatewayStatusToStr p.1), p.2)
    else if action = "stop".toList then
      if c.gatewayIsAlive then
        ((gatewayStopLib c.gateway).bind gatewayCloseLib).map fun g =>
          (GATEWAY_OK, snprintf respSize (doneText "Stopped".toList path), { c with gateway := g })
      else some (-1, snprintf respSize (failText "stop".toList path), c)
    else if action = "restart".toList then
      (if c.gatewayIsAlive then
        (gatewayRestartLib c.gateway).map fun g => (GATEWAY_OK, { c with gateway := g })
      else initAndStart l c).map fun p =>
        (p.1, snprintf respSize (if p.1 = GATEWAY_OK then doneText "Restarted".toList path
          else failText "restart".toList path ++ ": ".toList ++ gatewayStatusToStr p.1), p.2)
    else if action = "status".toList then
      some (GATEWAY_OK, snprintf respSize (statusText path
        (if c.gatewayIsAlive then "Running".toList else "Stopped".toList)), c)
    else some (-1, snprintf respSize ("Unknown action: '".toList ++ action ++ ['\'']), c)

/-! ## The abstract view -/

/-- The action of a command, if it has one. -/
def actionOf (command : CStr) : Option CStr := (parseCommand command).map Prod.snd

/-- Whether the gateway runs after a command with this result: since the last successful start or
restart there was no successful stop. -/
def runningAfter (running : Bool) (command : CStr) (res : Int) : Bool :=
  if res = GATEWAY_OK then
    if actionOf command = some "start".toList ∨ actionOf command = some "restart".toList then true
    else if actionOf command = some "stop".toList then false
    else running
  else running

/-- What a command answers, given whether the gateway runs: `status` says so, `stop` succeeds
exactly then, and `start` succeeds then. -/
structure Right (running : Bool) (command : CStr) (res : Int) (response : CStr) : Prop where
  status : ∀ lib, parseCommand command = some (lib, "status".toList) →
    (response = snprintf 256 (statusText (libPath lib) "Running".toList) ↔ running = true)
  stop : actionOf command = some "stop".toList → (res = GATEWAY_OK ↔ running = true)
  start : actionOf command = some "start".toList → running = true → res = GATEWAY_OK

/-- A run of commands over the socket, beside the abstract view. -/
structure Session where
  ctl : Ctl
  running : Bool
  deriving DecidableEq, Repr

/-- A command and the outcome of the load it may make. -/
abbrev Command := CStr × Load

def Session.step (a : Command) (s : Session) : Option Session :=
  (handleCtlCommand a.1 256 a.2 s.ctl).map fun p => ⟨p.2.2, runningAfter s.running a.1 p.1⟩

def session : Machine Session Command := ⟨Session.step⟩

/-- The command returns, and its answer is right. -/
def AnswersRight (s : Session) (a : Command) : Prop :=
  ∃ res response ctl, handleCtlCommand a.1 256 a.2 s.ctl = some (res, response, ctl) ∧
    Right s.running a.1 res response

/-- No start, stop or status while the gateway is alive. -/
def Unasked (s : Session) (a : Command) : Prop :=
  s.ctl.gateway.isAlive = true →
    ∀ act, actionOf a.1 = some act → act ∉ ["start".toList, "stop".toList, "status".toList]

/-! ## The responses of `status` -/

theorem scanWord_length {n : Nat} {s w rest : CStr} (h : scanWord n s = some (w, rest)) :
    w.length ≤ n := by
  unfold scanWord at h
  simp only at h
  split at h
  · cases h
  · simp only [Option.some.injEq, Prod.mk.injEq] at h
    rw [← h.1]
    exact List.length_take_le _ _

theorem parseCommand_length {command lib action : CStr}
    (h : parseCommand command = some (lib, action)) : lib.length ≤ 127 := by
  unfold parseCommand at h
  split at h
  · cases h
  · rename_i w rest hw
    split at h
    · cases h
    · simp only [Option.some.injEq, Prod.mk.injEq] at h
      rw [← h.1]
      exact scanWord_length hw

/-- The two responses of `status` differ: both fit in the response buffer. -/
theorem status_ne {lib : CStr} (hl : lib.length ≤ 127) :
    snprintf 256 (statusText (libPath lib) "Stopped".toList) ≠
      snprintf 256 (statusText (libPath lib) "Running".toList) := by
  have hlen : (libPath lib).length ≤ 141 := by
    have h := snprintf_length_le 256 ("./gateways/".toList ++ lib ++ ".so".toList)
    simp only [List.length_append] at h
    have h₁ : "./gateways/".toList.length = 11 := by decide
    have h₂ : ".so".toList.length = 3 := by decide
    unfold libPath
    omega
  have hnul : nul ∉ libPath lib := nul_not_mem_cstr _
  have fits : ∀ w : CStr, nul ∉ w → w.length = 7 →
      snprintf 256 (statusText (libPath lib) w) = statusText (libPath lib) w := by
    intro w hw h7
    have h₁ : "Status of '".toList.length = 11 := by decide
    have h₂ : "': ".toList.length = 3 := by decide
    have hn : nul ∉ statusText (libPath lib) w := by
      unfold statusText
      simp only [List.mem_append, not_or]
      exact ⟨⟨⟨by decide, hnul⟩, by decide⟩, hw⟩
    apply snprintf_eq_self hn
    unfold statusText
    simp only [List.length_append]
    omega
  rw [fits _ (by decide) (by decide), fits _ (by decide) (by decide)]
  unfold statusText
  intro h
  exact absurd (List.append_cancel_left h) (by decide)

/-! ## The refinement -/

/-- The flag of `core_ctl.c` stays 0; the flags of `gateway.c` are the abstract view. -/
structure Inv (s : Session) : Prop where
  unset : s.ctl.gatewayIsAlive = false
  connected : s.ctl.gateway.connected = s.running
  alive : s.ctl.gateway.isAlive = s.running

/-- On a gateway that is alive, `gateway_init_lib` refuses. -/
theorem initAndStart_alive {l : Load} {c : Ctl} (h : c.gateway.isAlive = true) :
    initAndStart l c = some (GATEWAY_ALREADY_INITIALIZED, c) := by
  unfold initAndStart gatewayInitLib
  rw [if_pos h]
  rfl

/-- Otherwise it fails and nothing runs, or it succeeds and the gateway is connected and alive. -/
theorem initAndStart_dead {l : Load} {c : Ctl} (ha : c.gateway.isAlive = false)
    (hc : c.gateway.connected = false) :
    ∃ res g, initAndStart l c = some (res, { c with gateway := g }) ∧
      g.connected = decide (res = GATEWAY_OK) ∧ g.isAlive = decide (res = GATEWAY_OK) := by
  unfold initAndStart
  rcases gatewayInitLib_cases l c.gateway ha with ⟨st, g, h, hst, -, h₁, h₂⟩ | ⟨g, h, -, h₁, h₂, h₃⟩
  · rw [h]
    refine ⟨st, g, if_neg hst, ?_, ?_⟩
    · rw [h₁, hc, decide_eq_false hst]
    · rw [h₂, decide_eq_false hst]
  · rw [h]
    simp only [↓reduceIte, gatewayStartLib, h₁, h₂, and_self, State.call, h₃, Option.map_some]
    exact ⟨_, _, rfl, by simp, by simp⟩

theorem right_iff_of_parse {command lib action response : CStr} {running : Bool} {res : Int}
    (hp : parseCommand command = some (lib, action)) :
    Right running command res response ↔
      (action = "status".toList →
        (response = snprintf 256 (statusText (libPath lib) "Running".toList) ↔ running = true)) ∧
      (action = "stop".toList → (res = GATEWAY_OK ↔ running = true)) ∧
      (action = "start".toList → running = true → res = GATEWAY_OK) := by
  have ha : actionOf command = some action := by rw [actionOf, hp]; rfl
  constructor
  · rintro ⟨h₁, h₂, h₃⟩
    exact ⟨fun h => h₁ lib (by rw [hp, h]), fun h => h₂ (by rw [ha, h]),
      fun h => h₃ (by rw [ha, h])⟩
  · rintro ⟨h₁, h₂, h₃⟩
    refine ⟨fun lib' h => ?_, fun h => ?_, fun h => ?_⟩
    · rw [hp, Option.some.injEq, Prod.mk.injEq] at h
      rw [← h.1]
      exact h₁ h.2
    · rw [ha, Option.some.injEq] at h
      exact h₂ h
    · rw [ha, Option.some.injEq] at h
      exact h₃ h

theorem answersRight_iff {s : Session} {a : Command} {res : Int} {response : CStr} {c : Ctl}
    (h : handleCtlCommand a.1 256 a.2 s.ctl = some (res, response, c)) :
    AnswersRight s a ↔ Right s.running a.1 res response := by
  constructor
  · rintro ⟨res', response', c', h', hr⟩
    rw [h] at h'
    cases h'
    exact hr
  · exact fun hr => ⟨res, response, c, h, hr⟩

theorem unasked_iff {s : Session} {a : Command} {action : CStr}
    (ha : actionOf a.1 = some action) :
    Unasked s a ↔ (s.ctl.gateway.isAlive = true →
      action ∉ ["start".toList, "stop".toList, "status".toList]) := by
  constructor
  · exact fun h hl => h hl action ha
  · intro h hl act hact
    rw [ha, Option.some.injEq] at hact
    exact hact ▸ h hl

/-- What a command does in a state of the refinement: it returns, and the state after it is one of
the refinement. -/
structure Handled (s : Session) (a : Command) (res : Int) (response : CStr) : Prop where
  returns : ∃ c, handleCtlCommand a.1 256 a.2 s.ctl = some (res, response, c) ∧
    Inv ⟨c, runningAfter s.running a.1 res⟩

theorem runningAfter_failed {running : Bool} {command : CStr} {res : Int} (h : res ≠ GATEWAY_OK) :
    runningAfter running command res = running := if_neg h

/-- A start or a restart: `gateway_init_lib`, which fails on a gateway that is alive. -/
theorem handled_init {s : Session} (hi : Inv s) {a : Command} {lib action : CStr}
    (hp : parseCommand a.1 = some (lib, action))
    (hact : action = "start".toList ∨ action = "restart".toList) :
    ∃ res response, Handled s a res response ∧ (s.running = true → res ≠ GATEWAY_OK) := by
  have ha : actionOf a.1 = some action := by rw [actionOf, hp]; rfl
  have hrun : ∀ res, runningAfter s.running a.1 res =
      if res = GATEWAY_OK then true else s.running := by
    intro res
    have hs : actionOf a.1 = some "start".toList ∨ actionOf a.1 = some "restart".toList := by
      rcases hact with h | h
      · exact .inl (by rw [ha, h])
      · exact .inr (by rw [ha, h])
    unfold runningAfter
    rw [if_pos hs]
  obtain ⟨res, c, hinit, hinv, hne⟩ : ∃ res c, initAndStart a.2 s.ctl = some (res, c) ∧
      Inv ⟨c, runningAfter s.running a.1 res⟩ ∧ (s.running = true → res ≠ GATEWAY_OK) := by
    cases hr : s.running with
    | true =>
      refine ⟨_, _, initAndStart_alive (hi.alive.trans hr), ?_, fun _ => by decide⟩
      rw [← hr, runningAfter_failed (by decide)]
      exact hi
    | false =>
      obtain ⟨res, g, h, h₁, h₂⟩ :=
        @initAndStart_dead a.2 s.ctl (hi.alive.trans hr) (hi.connected.trans hr)
      refine ⟨res, _, h, ?_, fun h => nomatch h⟩
      rw [← hr, hrun, hr]
      refine ⟨hi.unset, ?_, ?_⟩
      · show g.connected = _
        rw [h₁]
        by_cases hok : res = GATEWAY_OK <;> simp [hok]
      · show g.isAlive = _
        rw [h₂]
        by_cases hok : res = GATEWAY_OK <;> simp [hok]
  rcases hact with rfl | rfl
  · refine ⟨res, snprintf 256 (if res = GATEWAY_OK then doneText "Started".toList (libPath lib)
      else failText "start".toList (libPath lib) ++ ": ".toList ++ gatewayStatusToStr res),
      ⟨c, ?_, hinv⟩, hne⟩
    unfold handleCtlCommand
    rw [hp]
    simp only [hi.unset, ↓reduceIte, hinit, Option.map_some]
  · refine ⟨res, snprintf 256 (if res = GATEWAY_OK then doneText "Restarted".toList (libPath lib)
      else failText "restart".toList (libPath lib) ++ ": ".toList ++ gatewayStatusToStr res),
      ⟨c, ?_, hinv⟩, hne⟩
    unfold handleCtlCommand
    rw [hp]
    simp only [hi.unset, Bool.false_eq_true, ↓reduceIte, hinit, Option.map_some,
      show ("restart".toList = "start".toList) = False by decide,
      show ("restart".toList = "stop".toList) = False by decide]

/-- **One command.** It returns, it keeps the refinement, and its answer is right unless it is a
start, stop or status while the gateway is alive. -/
theorem handleCtlCommand_spec {s : Session} (hi : Inv s) (a : Command) :
    (∃ res response, Handled s a res response) ∧ (AnswersRight s a ↔ Unasked s a) := by
  -- A command that fails, or that only reports, keeps the state.
  have still : ∀ res response,
      handleCtlCommand a.1 256 a.2 s.ctl = some (res, response, s.ctl) →
      runningAfter s.running a.1 res = s.running → Handled s a res response :=
    fun res response h hr => ⟨s.ctl, h, by rw [hr]; exact hi⟩
  have failed : (-1 : Int) ≠ GATEWAY_OK := by decide
  cases hp : parseCommand a.1 with
  | none =>
    have h : handleCtlCommand a.1 256 a.2 s.ctl =
        some (-1, snprintf 256 "Invalid command format.".toList, s.ctl) := by
      unfold handleCtlCommand; rw [hp]
    have ha : actionOf a.1 = none := by rw [actionOf, hp]; rfl
    refine ⟨⟨_, _, still _ _ h (runningAfter_failed failed)⟩, ?_⟩
    rw [answersRight_iff h]
    refine iff_of_true ⟨fun lib h => ?_, fun h => ?_, fun h => ?_⟩ fun _ act hact => ?_
    · rw [hp] at h; cases h
    · rw [ha] at h; cases h
    · rw [ha] at h; cases h
    · rw [ha] at hact; cases hact
  | some p =>
    obtain ⟨lib, action⟩ := p
    have ha : actionOf a.1 = some action := by rw [actionOf, hp]; rfl
    rw [unasked_iff ha, hi.alive]
    by_cases hstart : action = "start".toList
    · obtain ⟨res, response, hh, hne⟩ := handled_init hi hp (.inl hstart)
      obtain ⟨c, h, -⟩ := hh.returns
      refine ⟨⟨res, response, hh⟩, ?_⟩
      rw [answersRight_iff h, right_iff_of_parse hp, hstart]
      constructor
      · exact fun ⟨_, _, h₃⟩ hr => absurd (h₃ rfl hr) (hne hr)
      · intro hno
        have hr : s.running ≠ true := fun hr => hno hr (by decide)
        exact ⟨fun h => absurd h (by decide), fun h => absurd h (by decide), fun _ h => absurd h hr⟩
    by_cases hstop : action = "stop".toList
    · have h : handleCtlCommand a.1 256 a.2 s.ctl =
          some (-1, snprintf 256 (failText "stop".toList (libPath lib)), s.ctl) := by
        unfold handleCtlCommand
        rw [hp]
        simp only [hstop, hi.unset, ↓reduceIte, Bool.false_eq_true,
          show ("stop".toList = "start".toList) = False by decide]
      refine ⟨⟨_, _, still _ _ h (runningAfter_failed failed)⟩, ?_⟩
      rw [answersRight_iff h, right_iff_of_parse hp, hstop]
      constructor
      · exact fun ⟨_, h₂, _⟩ hr => absurd ((h₂ rfl).mpr hr) failed
      · intro hno
        have hr : s.running ≠ true := fun hr => hno hr (by decide)
        exact ⟨fun h => absurd h (by decide), fun _ => iff_of_false failed hr,
          fun h => absurd h (by decide)⟩
    by_cases hrestart : action = "restart".toList
    · obtain ⟨res, response, hh, -⟩ := handled_init hi hp (.inr hrestart)
      obtain ⟨c, h, -⟩ := hh.returns
      refine ⟨⟨res, response, hh⟩, ?_⟩
      rw [answersRight_iff h, right_iff_of_parse hp, hrestart]
      exact iff_of_true ⟨fun h => absurd h (by decide), fun h => absurd h (by decide),
        fun h => absurd h (by decide)⟩ fun _ => by decide
    by_cases hstatus : action = "status".toList
    · have h : handleCtlCommand a.1 256 a.2 s.ctl =
          some (GATEWAY_OK, snprintf 256 (statusText (libPath lib) "Stopped".toList), s.ctl) := by
        unfold handleCtlCommand
        rw [hp]
        simp only [hstatus, hi.unset, ↓reduceIte, Bool.false_eq_true,
          show ("status".toList = "start".toList) = False by decide,
          show ("status".toList = "stop".toList) = False by decide,
          show ("status".toList = "restart".toList) = False by decide]
      have hafter : runningAfter s.running a.1 GATEWAY_OK = s.running := by
        unfold runningAfter
        rw [ha, hstatus, if_pos rfl, if_neg (by decide), if_neg (by decide)]
      refine ⟨⟨_, _, still _ _ h hafter⟩, ?_⟩
      rw [answersRight_iff h, right_iff_of_parse hp, hstatus]
      have hne := status_ne (parseCommand_length hp)
      constructor
      · exact fun ⟨h₁, _, _⟩ hr => absurd ((h₁ rfl).mpr hr) hne
      · intro hno
        have hr : s.running ≠ true := fun hr => hno hr (by decide)
        exact ⟨fun _ => iff_of_false hne hr, fun h => absurd h (by decide),
          fun h => absurd h (by decide)⟩
    · have h : handleCtlCommand a.1 256 a.2 s.ctl =
          some (-1, snprintf 256 ("Unknown action: '".toList ++ action ++ ['\'']), s.ctl) := by
        unfold handleCtlCommand
        rw [hp]
        simp only [hstart, hstop, hrestart, hstatus, ↓reduceIte]
      refine ⟨⟨_, _, still _ _ h (runningAfter_failed failed)⟩, ?_⟩
      rw [answersRight_iff h, right_iff_of_parse hp]
      refine iff_of_true ⟨fun h => absurd h hstatus, fun h => absurd h hstop,
        fun h => absurd h hstart⟩ fun _ hmem => ?_
      simp only [List.mem_cons, List.not_mem_nil, or_false] at hmem
      rcases hmem with h | h | h
      · exact hstart h
      · exact hstop h
      · exact hstatus h

/-- Every command keeps the refinement. -/
theorem inv_keeps : session.Keeps (fun _ _ => True) Inv := by
  intro s a s' hi _ h
  obtain ⟨⟨res, response, hh⟩, -⟩ := handleCtlCommand_spec hi a
  obtain ⟨c, hc, hinv⟩ := hh.returns
  simp only [session, Session.step, hc, Option.map_some, Option.some.injEq] at h
  exact h ▸ hinv

theorem inv_zero : Inv ⟨Ctl.zero, false⟩ := ⟨rfl, rfl, rfl⟩

/-- **The commands of a run.** From program start, for every sequence of commands and outcomes of
loading: every command is answered right if and only if no start, stop or status comes while the
gateway is alive. -/
theorem right_iff (as : List Command) :
    session.Meets AnswersRight as ⟨Ctl.zero, false⟩ ↔
      session.Meets Unasked as ⟨Ctl.zero, false⟩ := by
  constructor
  · exact Machine.Keeps.meets (inv_keeps.mono fun _ _ _ => trivial)
      (fun s a hi h => (handleCtlCommand_spec hi a).2.mp h) inv_zero
  · exact Machine.Keeps.meets (inv_keeps.mono fun _ _ _ => trivial)
      (fun s a hi h => (handleCtlCommand_spec hi a).2.mpr h) inv_zero

/-- After `gw start` with a library that loads. -/
def startedSession : Session where
  ctl := ⟨{ State.zero with
    connected := true, isAlive := true, initFn := some 0, startFn := some 0, stopFn := some 0
    closeFn := some 0, onDataFn := some 0, dispatcherRunning := true, onDataCb := some 0
    loads := 1, trace := [.init 0, .start 0] }, false⟩
  running := true

/-- **The running gateway is reported as stopped.** After a successful start, status answers
`Stopped`, stop fails, and a second start fails. -/
theorem started_reported_stopped :
    session.run [("gw start".toList, Load.ok)] ⟨Ctl.zero, false⟩ = some startedSession ∧
      startedSession.running = true ∧
      (handleCtlCommand "gw status".toList 256 Load.ok startedSession.ctl).map (fun p => p.2.1) =
        some "Status of './gateways/gw.so': Stopped".toList ∧
      (handleCtlCommand "gw stop".toList 256 Load.ok startedSession.ctl).map (fun p => p.1) =
        some (-1) ∧
      (handleCtlCommand "gw start".toList 256 Load.ok startedSession.ctl).map (fun p => p.1) =
        some GATEWAY_ALREADY_INITIALIZED ∧
      ¬ AnswersRight startedSession ("gw status".toList, Load.ok) := by
  have htext : (handleCtlCommand "gw status".toList 256 Load.ok startedSession.ctl).map
      (fun p => p.2.1) = some "Status of './gateways/gw.so': Stopped".toList := by decide +kernel
  refine ⟨by decide +kernel, rfl, htext, by decide +kernel, by decide +kernel, ?_⟩
  rintro ⟨res, response, c, hc, hr⟩
  have hs := hr.status "gw".toList (by decide +kernel)
  rw [hc, Option.map_some, Option.some.injEq] at htext
  obtain rfl : response = "Status of './gateways/gw.so': Stopped".toList := htext
  exact absurd (hs.mpr rfl) (by decide +kernel)

end Gateway
end CoreCDTL
