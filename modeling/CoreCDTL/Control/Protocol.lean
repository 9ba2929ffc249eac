import CoreCDTL.Control.Server
import CoreCDTL.Control.Client
import CoreCDTL.Lib.Exchange
import Mathlib.Logic.Function.Basic

/-!
# Clients and daemon (`ctl/corecdtl-ctl.c` and `core/core_ctl.c`)

Any number of clients talk to the daemon over stream sockets. The daemon serves them one after the
other; the steps of all processes interleave in any order.

* `System`: the server, the clients, whose connection the server's client descriptor is (`peer`),
  and `log`, the history of the commands that the daemon handled.
* `answers` is what the sockets allow a call of the server to return; `select` and the failures are
  free.
* `exchange` reads off the buffers and the server's state what is under way between a client and the
  daemon. `Talk` says that this is a stop-and-wait exchange of commands and responses, although
  nothing in the protocol frames a command.
* `control_protocol`: the log is a sequential history of `handle_ctl_command`, and every client
  sees the answers to its own commands, in its order.
* `daemon_survives`: the daemon is killed only through a client that is gone before its answer.
-/

namespace CoreCDTL
namespace Control

open Gateway
open Function (update)

/-! ## The system -/

/-- A handled command. -/
structure Entry (ι : Type) where
  who : ι
  command : CStr
  load : Load
  response : CStr

/-- The processes and the sockets between them. `unsent` is the response whose write killed the
server. -/
structure System (ι : Type) where
  server : Server
  clients : ι → Client
  peer : Option ι
  ctlRun : Bool
  unsent : Option (ι × CStr)
  log : List (Entry ι)

def System.start {ι : Type} : System ι where
  server := .start
  clients := fun _ => .start
  peer := none
  ctlRun := false
  unsent := none
  log := []

/-- A step: a client's line, the return of its `connect_to_daemon`, the end of its input, the return
of its `read`, its death from outside, or the return of a call of the server (with the client that
`accept` gave). -/
inductive Label (ι : Type) where
  | line (i : ι) (input : List Char)
  | connect (i : ι) (ok : Bool)
  | eof (i : ι)
  | receive (i : ι)
  | interrupt (i : ι)
  | call (a : Act) (j : Option ι)

/-- The listening socket accepts connections. -/
def Pc.listens : Pc → Bool
  | .out | .killed | .bind _ | .listen _ => false
  | _ => true

variable {ι : Type} [DecidableEq ι]

/-- One client changes. -/
def System.onClient (i : ι) (f : Client → Client) (s : System ι) : System ι :=
  { s with clients := update s.clients i (f (s.clients i)) }

/-- What the sockets allow: `read` takes what is on its way, up to the size of its buffer, and
returns 0 when there is nothing and the client is gone; a write fails when the client is gone. -/
def System.answers (a : Act) (j : Option ι) (s : System ι) : Bool :=
  match a with
  | .socket _ => s.ctlRun
  | .accept (some _) => j.any fun i => (s.clients i).link = .queued
  | .read (some buffer) _ => s.peer.any fun i =>
      buffer = (s.clients i).toServer.take 255 ∧ (buffer = [] → (s.clients i).alive = false)
  | .write ok => s.peer.any fun i => ok = (s.clients i).alive
  | _ => true

/-- What a call does to the connections, `resp` being the response that the server was about to
write and `s` the system with the server after the call. -/
def System.effect (a : Act) (j : Option ι) (resp : Option CStr) (s : System ι) : System ι :=
  match a with
  | .accept (some _) =>
    match j with
    | some i => { s.onClient i fun c => { c with link := .accepted } with peer := some i }
    | none => s
  | .read (some buffer) load =>
    match s.peer, s.server.pc.resp with
    | some i, some r => { s.onClient i fun c => { c with toServer := c.toServer.drop 255 } with
        log := s.log ++ [⟨i, cstr buffer, load, r⟩] }
    | _, _ => s
  | .write ok =>
    match s.peer, resp with
    | some i, some r =>
      if ok then s.onClient i fun c => { c with toClient := c.toClient ++ r }
      else { s with unsent := some (i, r) }
    | _, _ => s
  | _ => s

/-- The server has closed the client's descriptor. -/
def System.hangUp (s : System ι) : System ι :=
  match s.peer with
  | some i => if s.server.pc.serves then s
      else { s.onClient i fun c => { c with link := .closed } with peer := none }
  | none => s

/-- The listening socket is closed, and with it the connections in its backlog. -/
def System.shut (s : System ι) : System ι :=
  if s.server.pc.listens then s
  else { s with clients := fun i =>
    if (s.clients i).link = .queued then { s.clients i with link := .closed } else s.clients i }

def System.step (a : Label ι) (s : System ι) : Option (System ι) :=
  match a with
  | .line i input =>
    if (s.clients i).pc = .prompt ∧ input.length ≤ 255 then
      -- the `SIGUSR1` of `connect_to_daemon` sets `g_ctl_run`
      some { s.onClient i (Client.runRepl input) with
        ctlRun := s.ctlRun || ((s.clients i).runRepl input).pc = .connecting }
    else none
  | .connect i ok =>
    if (s.clients i).pc = .connecting ∧ (ok → s.server.pc.listens) then
      some (s.onClient i (Client.connectReturns ok))
    else none
  | .eof i =>
    if (s.clients i).pc = .prompt then some (s.onClient i fun c => { c with pc := .ended })
    else none
  | .receive i =>
    if (s.clients i).pc = .waiting then
      (s.clients i).receive.map fun c => s.onClient i fun _ => c
    else none
  | .interrupt i =>
    if (s.clients i).alive then some (s.onClient i fun c => { c with pc := .interrupted })
    else none
  | .call a j =>
    if s.answers a j then
      (Server.step a s.server).map fun t =>
        ({ s with server := t } : System ι).effect a j s.server.pc.resp |>.hangUp |>.shut
    else none

/-- Clients and daemon, from program start. -/
def protocol : Machine (System ι) (Label ι) := ⟨System.step⟩

/-! ## The abstract view -/

/-- The commands that a client sent, without the empty ones: a write of no bytes sends nothing. -/
def Client.commands (c : Client) : List CStr := c.sent.filter (· ≠ [])

/-- The handled commands of a client, with their responses. -/
def handled (i : ι) (log : List (Entry ι)) : List (CStr × CStr) :=
  log.filterMap fun e => if e.who = i then some (e.command, e.response) else none

/-- The commands of the log, handled one after the other, give the responses of the log and this
state. -/
def replay : List (Entry ι) → Ctl → Option Ctl
  | [], c => some c
  | e :: es, c =>
    (handleCtlCommand e.command 256 e.load c).bind fun p =>
      if p.2.1 = e.response then replay es p.2.2 else none

/-- The response for client `i` that is not written yet. -/
def System.pending (i : ι) (s : System ι) : Option CStr :=
  match s.unsent with
  | some (k, r) => if k = i then some r else none
  | none => if s.peer = some i then s.server.pc.resp else none

/-- What is under way between a client and the daemon, read off the bytes in either direction and
the response that the daemon is about to write. -/
def exchange (toServer toClient : List Char) (pending : Option CStr) : Exchange CStr CStr :=
  if toServer ≠ [] then .asked toServer
  else match pending with
    | some r => .served r
    | none => if toClient ≠ [] then .answered toClient else .idle

/-- The talk of a client with the daemon is a stop-and-wait exchange: one command or one response
is under way, and it is what the buffers hold. -/
structure Talk (c : Client) (handled : List (CStr × CStr)) (pending : Option CStr) : Prop where
  agrees : Exchange.Agrees c.commands handled c.printed
    (exchange c.toServer c.toClient pending)
  asked : c.toServer ≠ [] → pending = none ∧ c.toClient = []
  served : pending ≠ none → c.toClient = []
  idle : c.idle = true → pending = none ∧ c.toClient = [] ∧
    (c.toServer = [] ∨ c.link = .closed)
  connecting : c.pc = .connecting → c.connected = false
  waiting : c.pc = .waiting → exchange c.toServer c.toClient pending = .idle → c.sent.getLast? = some []
  new : c.connected = false → c.link = .none ∧ c.pc ≠ .waiting
  toServer : Fits 255 c.toServer
  toClient : Fits 255 c.toClient

/-- The invariant of the system, while the server may have closed a connection that is not hung up
yet. -/
structure Open (s : System ι) : Prop where
  server : Inv s.server
  replay : replay s.log Ctl.zero = some s.server.ctl
  serves : s.server.pc.serves = true → s.peer.isSome = true
  link : ∀ i, (s.clients i).link = .accepted ↔ s.peer = some i
  unsent : ∀ i r, s.unsent = some (i, r) → (s.clients i).alive = false
  dead : s.server.pc = .killed ↔ s.unsent ≠ none
  talk : ∀ i, Talk (s.clients i) (handled i s.log) (s.pending i)

/-- The invariant of the system. -/
structure Good (s : System ι) : Prop extends Open s where
  peer : s.peer.isSome = true → s.server.pc.serves = true

/-! ## Small facts -/

omit [DecidableEq ι] in
theorem replay_append (es fs : List (Entry ι)) (c : Ctl) :
    replay (es ++ fs) c = (replay es c).bind (replay fs) := by
  induction es generalizing c with
  | nil => rfl
  | cons e es ih =>
    rw [List.cons_append, replay, replay, Option.bind_assoc]
    congr 1
    funext p
    split
    · exact ih p.2.2
    · rfl

theorem handled_append (i : ι) (log : List (Entry ι)) (e : Entry ι) :
    handled i (log ++ [e]) =
      if e.who = i then handled i log ++ [(e.command, e.response)] else handled i log := by
  unfold handled
  rw [List.filterMap_append, List.filterMap_cons, List.filterMap_nil]
  by_cases h : e.who = i
  · simp only [if_pos h]
  · simp only [if_neg h, List.append_nil]

theorem commands_append (c : Client) (command : CStr) :
    (c.sent ++ [command]).filter (· ≠ []) =
      if command = [] then c.commands else c.commands ++ [command] := by
  unfold Client.commands
  rw [List.filter_append]
  by_cases h : command = []
  · simp [h]
  · simp [h]

theorem onClient_self (i : ι) (f : Client → Client) (s : System ι) :
    (s.onClient i f).clients i = f (s.clients i) := Function.update_self ..

theorem onClient_of_ne {i j : ι} (h : j ≠ i) (f : Client → Client) (s : System ι) :
    (s.onClient i f).clients j = s.clients j := Function.update_of_ne h ..

section Exchange

variable {x y : List Char} {p : Option CStr}

theorem exchange_asked (h : x ≠ []) : exchange x y p = .asked x := if_pos h

theorem exchange_served (h : x = []) (r : CStr) : exchange x y (some r) = .served r := by
  unfold exchange
  rw [if_neg (not_not_intro h)]

theorem exchange_answered (h : x = []) (hy : y ≠ []) : exchange x y none = .answered y := by
  unfold exchange
  rw [if_neg (not_not_intro h)]
  exact if_pos hy

theorem exchange_idle (h : x = []) (hy : y = []) : exchange x y none = .idle := by
  unfold exchange
  rw [if_neg (not_not_intro h)]
  exact if_neg (not_not_intro hy)

end Exchange

/-! ## One step of a talk -/

namespace Talk

variable {c : Client} {hs : List (CStr × CStr)} {p : Option CStr}

theorem start : Talk .start [] none where
  agrees := Exchange.agrees_nil
  asked := fun h => absurd rfl h
  served := fun h => absurd rfl h
  idle := fun _ => ⟨rfl, rfl, .inl rfl⟩
  connecting := nofun
  waiting := nofun
  new := fun _ => ⟨rfl, nofun⟩
  toServer := ⟨nofun, Nat.zero_le _⟩
  toClient := ⟨nofun, Nat.zero_le _⟩

/-- The client process ends. -/
theorem stop (h : Talk c hs p) {pc : ClientPc} (hpc : ({ c with pc := pc } : Client).alive = false) :
    Talk { c with pc := pc } hs p := by
  simp only [Client.alive, decide_eq_false_iff_not, not_or] at hpc
  exact {
    agrees := h.agrees
    asked := h.asked
    served := h.served
    idle := fun e => by simp [Client.idle, hpc] at e
    connecting := fun e => absurd e hpc.2.1
    waiting := fun e => absurd e hpc.2.2
    new := fun e => ⟨(h.new e).1, hpc.2.2⟩
    toServer := h.toServer
    toClient := h.toClient }

/-- The daemon accepts or closes the connection. -/
theorem relink (h : Talk c hs p) {link : Link} (hl : c.link ≠ .none)
    (hc : c.link = .closed → link = .closed) : Talk { c with link := link } hs p where
  agrees := h.agrees
  asked := h.asked
  served := h.served
  idle := fun e => ⟨(h.idle e).1, (h.idle e).2.1, (h.idle e).2.2.imp id hc⟩
  connecting := h.connecting
  waiting := h.waiting
  new := fun e => absurd (h.new e).1 hl
  toServer := h.toServer
  toClient := h.toClient

/-- The client begins to connect. -/
theorem connectToDaemon (h : Talk c hs p) (hpc : c.pc = .prompt) :
    Talk c.connectToDaemon hs p := by
  unfold Client.connectToDaemon
  split
  · exact h
  · rename_i hn
    have hidle : c.idle = true := by simp [Client.idle, hpc]
    exact ⟨h.agrees, h.asked, h.served, fun _ => h.idle hidle, fun _ => by simpa using hn, nofun,
      fun e => ⟨(h.new e).1, nofun⟩, h.toServer, h.toClient⟩

/-- The client is connected, or it is not. -/
theorem connectReturns (h : Talk c hs p) (hpc : c.pc = .connecting) (ok : Bool) :
    Talk (c.connectReturns ok) hs p := by
  have hidle : c.idle = true := by simp [Client.idle, hpc]
  obtain ⟨h₁, h₂, h₃⟩ := h.idle hidle
  have hlink : c.link = .none := (h.new (h.connecting hpc)).1
  have hsv : c.toServer = [] := h₃.resolve_right (by rw [hlink]; nofun)
  unfold Client.connectReturns
  split
  · exact ⟨h.agrees, h.asked, h.served, fun _ => ⟨h₁, h₂, .inl hsv⟩, nofun, nofun, nofun,
      h.toServer, h.toClient⟩
  · exact ⟨h.agrees, h.asked, h.served, fun _ => ⟨h₁, h₂, .inl hsv⟩, nofun, nofun,
      fun e => ⟨(h.new e).1, nofun⟩, h.toServer, h.toClient⟩

/-- The client sends a command and waits. -/
theorem sendCommand (h : Talk c hs p) (hpc : c.pc = .prompt) (hc : c.connected = true)
    {command : CStr} (hfit : Fits 255 command) : Talk (c.sendCommand command) hs p := by
  obtain ⟨rfl, hcl, hsv⟩ := h.idle (by simp [Client.idle, hpc])
  unfold Client.sendCommand
  split
  · exact h.stop rfl
  · rename_i hlink
    have hsv : c.toServer = [] := hsv.resolve_right hlink
    have hidle : Exchange.Agrees c.commands hs c.printed .idle := exchange_idle hsv hcl ▸ h.agrees
    refine ⟨?_, fun _ => ⟨rfl, hcl⟩, fun e => absurd rfl e, nofun, nofun, fun _ he => ?_,
      fun e => ⟨(h.new e).1, ?_⟩, ?_, h.toClient⟩
    · show Exchange.Agrees ((c.sent ++ [command]).filter (· ≠ [])) hs c.printed _
      rw [commands_append]
      by_cases hne : command = []
      · rw [if_pos hne, exchange_idle (by simp [hsv, hne]) hcl]
        exact hidle
      · rw [if_neg hne, exchange_asked (by simp [hne])]
        simp only [hsv, List.nil_append]
        exact hidle.ask command
    · have hnil : command = [] := by
        by_contra hne
        rw [exchange_asked (by simp [hsv, hne])] at he
        cases he
      simp [hnil]
    · rw [hc] at e
      cases e
    · simp only [hsv, List.nil_append]
      exact hfit

/-- The client reads a line. -/
theorem runRepl (h : Talk c hs p) (hpc : c.pc = .prompt) {input : List Char}
    (hlen : input.length ≤ 255) : Talk (c.runRepl input) hs p := by
  unfold Client.runRepl
  split
  · exact h.stop rfl
  · exact h.connectToDaemon hpc
  · rename_i command hsend
    obtain ⟨hfit, hc⟩ := replLine_fits (inputLine_fits hlen) hsend
    exact h.sendCommand hpc hc hfit
  · exact h
  · exact h
  · exact h

/-- The `read` of the client returns. -/
theorem receive (h : Talk c hs p) (hlink : p ≠ none → c.link ≠ .closed) {c' : Client}
    (hr : c.receive = some c') : Talk c' hs p := by
  unfold Client.receive at hr
  split at hr
  · rename_i hne
    obtain rfl : p = none := by
      by_contra hp
      exact hne (h.served hp)
    have hsv : c.toServer = [] := by
      by_contra hsv
      exact hne (h.asked hsv).2
    have htake : c.toClient.take 255 = c.toClient :=
      List.take_of_length_le h.toClient.length_le
    have hdrop : c.toClient.drop 255 = [] := List.drop_eq_nil_of_le h.toClient.length_le
    have ha := h.agrees
    rw [exchange_answered hsv hne] at ha
    rw [htake, hdrop, cstr_eq_self h.toClient.noNul] at hr
    cases hr
    refine ⟨?_, fun e => absurd hsv e, fun e => absurd rfl e, fun _ => ⟨rfl, rfl, .inl hsv⟩, nofun,
      nofun, fun e => ⟨(h.new e).1, nofun⟩, h.toServer, ⟨nofun, Nat.zero_le _⟩⟩
    rw [exchange_idle hsv rfl]
    exact ha.take
  · rename_i hnil
    split at hr
    · rename_i hcl
      obtain rfl : p = none := by
        by_contra hp
        exact hlink hp hcl
      cases hr
      exact ⟨h.agrees, h.asked, h.served, fun _ => ⟨rfl, by simpa using hnil, .inr hcl⟩, nofun,
        nofun, fun e => ⟨(h.new e).1, nofun⟩, h.toServer, h.toClient⟩
    · cases hr

/-- The daemon reads and handles what is on its way: the whole command, and nothing else. -/
theorem handle (h : Talk c hs p) (hne : c.toServer.take 255 ≠ []) (hlink : c.link ≠ .closed)
    (r : CStr) :
    Talk { c with toServer := c.toServer.drop 255 }
      (hs ++ [(cstr (c.toServer.take 255), r)]) (some r) := by
  have htake : c.toServer.take 255 = c.toServer :=
    List.take_of_length_le h.toServer.length_le
  have hdrop : c.toServer.drop 255 = [] := List.drop_eq_nil_of_le h.toServer.length_le
  rw [htake] at hne ⊢
  rw [hdrop, cstr_eq_self h.toServer.noNul]
  have ha := h.agrees
  rw [exchange_asked hne] at ha
  refine ⟨?_, fun e => absurd rfl e, fun _ => (h.asked hne).2, fun e => ?_, h.connecting,
    fun _ e => ?_, h.new, ⟨nofun, Nat.zero_le _⟩, h.toClient⟩
  · rw [exchange_served rfl]
    exact ha.serve r
  · exact absurd (h.idle e).2.2 (not_or.mpr ⟨hne, hlink⟩)
  · rw [exchange_served rfl] at e
    cases e

/-- The daemon writes the response. -/
theorem post {r : CStr} (h : Talk c hs (some r)) (hr : Response r) :
    Talk { c with toClient := c.toClient ++ r } hs none := by
  have hcl : c.toClient = [] := h.served nofun
  have hsv : c.toServer = [] := by
    by_contra hsv
    cases (h.asked hsv).1
  have ha := h.agrees
  rw [exchange_served hsv] at ha
  rw [hcl, List.nil_append]
  refine ⟨?_, fun e => absurd hsv e, fun e => absurd rfl e, fun e => ?_, h.connecting,
    fun _ e => ?_, h.new, h.toServer, hr.fits⟩
  · rw [exchange_answered hsv hr.ne_nil]
    exact ha.post
  · cases (h.idle e).1
  · rw [exchange_answered hsv hr.ne_nil] at e
    cases e

end Talk

/-! ## One step of the system -/

theorem good_start : Good (System.start : System ι) where
  server := inv_start
  replay := rfl
  serves := nofun
  link := fun i => by simp [System.start, Client.start]
  unsent := nofun
  dead := by simp [System.start, Server.start]
  talk := fun _ => Talk.start
  peer := nofun

section Steps

variable {s : System ι}

/-- Nothing is unsent and the server is not about to write. -/
theorem pending_none (hu : s.unsent = none) (hr : s.server.pc.resp = none) (i : ι) :
    s.pending i = none := by
  unfold System.pending
  rw [hu, hr]
  exact ite_self _

theorem pending_self (hu : s.unsent = none) {i : ι} (hp : s.peer = some i) :
    s.pending i = s.server.pc.resp := by
  unfold System.pending
  rw [hu]
  exact if_pos hp

theorem pending_of_ne (hu : s.unsent = none) {i j : ι} (hp : s.peer = some i) (hj : j ≠ i) :
    s.pending j = none := by
  unfold System.pending
  rw [hu, hp]
  exact if_neg fun e => hj (Option.some.inj e).symm

/-- A client changes. -/
theorem Good.client (h : Good s) {i : ι} {f : Client → Client} {run : Bool}
    (ht : Talk (f (s.clients i)) (handled i s.log) (s.pending i))
    (hl : (f (s.clients i)).link = .accepted ↔ (s.clients i).link = .accepted)
    (ha : (s.clients i).alive = false → (f (s.clients i)).alive = false) :
    Good { s.onClient i f with ctlRun := run } where
  server := h.server
  replay := h.replay
  serves := h.serves
  link := fun j => by
    by_cases hj : j = i
    · subst hj
      exact (show _ ↔ _ by rw [onClient_self]; exact hl).trans (h.link j)
    · exact (show _ ↔ _ by rw [onClient_of_ne hj]).trans (h.link j)
  unsent := fun j r hu => by
    have hdead := h.unsent j r hu
    by_cases hj : j = i
    · subst hj
      show ((s.onClient j f).clients j).alive = false
      rw [onClient_self]
      exact ha hdead
    · show ((s.onClient i f).clients j).alive = false
      rw [onClient_of_ne hj]
      exact hdead
  dead := h.dead
  talk := fun j => by
    show Talk ((s.onClient i f).clients j) (handled j s.log) (s.pending j)
    by_cases hj : j = i
    · subst hj
      rw [onClient_self]
      exact ht
    · rw [onClient_of_ne hj]
      exact h.talk j
  peer := h.peer

/-- A response that is not written is under way to an accepted client, or its client is gone. -/
theorem Good.pending_link (h : Good s) {i : ι} (ha : (s.clients i).alive = true)
    (hp : s.pending i ≠ none) : (s.clients i).link = .accepted := by
  unfold System.pending at hp
  split at hp
  · rename_i k r hu
    split at hp
    · rename_i hk
      subst hk
      rw [h.unsent _ r hu] at ha
      cases ha
    · exact absurd rfl hp
  · split at hp
    · rename_i hpeer
      exact (h.link i).mpr hpeer
    · exact absurd rfl hp

/-- The server goes from a call without a response to another one. -/
theorem Good.quiet (h : Good s) {t : Server} (ht : Inv t) (hctl : t.ctl = s.server.ctl)
    (hbefore : s.server.pc.resp = none) (hafter : t.pc.resp = none)
    (halive : s.server.pc ≠ .killed ∧ t.pc ≠ .killed)
    (hs : t.pc.serves = true → s.server.pc.serves = true) : Open { s with server := t } where
  server := ht
  replay := by
    rw [hctl]
    exact h.replay
  serves := fun e => h.serves (hs e)
  link := h.link
  unsent := h.unsent
  dead := iff_of_false halive.2 (fun e => halive.1 (h.dead.mpr e))
  talk := fun i => by
    have hu : s.unsent = none := by
      by_contra hu
      exact halive.1 (h.dead.mpr hu)
    have hp : ({ s with server := t } : System ι).pending i = none := by
      apply pending_none
      · exact hu
      · exact hafter
    rw [hp, ← pending_none hu hbefore i]
    exact h.talk i

/-- The server accepts a client of the backlog. -/
theorem Good.accept (h : Good s) {t : Server} {i : ι} (ht : Inv t)
    (hctl : t.ctl = s.server.ctl) (hpc : s.server.pc.serves = false) (hafter : t.pc.resp = none)
    (halive : s.server.pc ≠ .killed ∧ t.pc ≠ .killed) (hq : (s.clients i).link = .queued) :
    Open { ({ s with server := t } : System ι).onClient i fun c => { c with link := .accepted }
      with peer := some i } := by
  have hnone : s.peer = none := by
    by_contra hp
    rw [h.peer (Option.isSome_iff_ne_none.mpr hp)] at hpc
    cases hpc
  have hu : s.unsent = none := by
    by_contra hu
    exact halive.1 (h.dead.mpr hu)
  refine ⟨ht, ?_, fun _ => rfl, fun j => ?_, fun j r e => ?_, ?_, fun j => ?_⟩
  · show replay s.log Ctl.zero = some t.ctl
    rw [hctl]
    exact h.replay
  · by_cases hj : j = i
    · subst hj
      exact iff_of_true (by rw [onClient_self]) rfl
    · refine iff_of_false (fun e => ?_) fun e => hj (Option.some.inj e).symm
      rw [onClient_of_ne hj] at e
      rw [(h.link j).mp e] at hnone
      cases hnone
  · exact absurd (hu.symm.trans e) nofun
  · exact iff_of_false halive.2 (not_not_intro hu)
  · have hp : System.pending j
        { ({ s with server := t } : System ι).onClient i fun c => { c with link := .accepted } with
          peer := some i } = none := by
      apply pending_none
      · exact hu
      · exact hafter
    have htalk := h.talk j
    have hpj : s.pending j = none := by
      unfold System.pending
      rw [hu, hnone]
      rfl
    rw [hpj] at htalk
    rw [hp]
    by_cases hj : j = i
    · subst hj
      rw [onClient_self]
      exact htalk.relink (by rw [hq]; nofun) (by rw [hq]; nofun)
    · rw [onClient_of_ne hj]
      exact htalk

/-- The server handles what it read from its client. -/
theorem Good.handle (h : Good s) {t : Server} {i : ι} {load : Load} {r : CStr} {res : Int}
    (ht : Inv t) (hpeer : s.peer = some i) (hafter : t.pc.resp = some r)
    (halive : s.server.pc ≠ .killed ∧ t.pc ≠ .killed)
    (hne : (s.clients i).toServer.take 255 ≠ [])
    (hctl : handleCtlCommand (cstr ((s.clients i).toServer.take 255)) 256 load s.server.ctl =
      some (res, r, t.ctl)) :
    Open { ({ s with server := t } : System ι).onClient i
        fun c => { c with toServer := c.toServer.drop 255 } with
      log := s.log ++ [⟨i, cstr ((s.clients i).toServer.take 255), load, r⟩] } := by
  have hu : s.unsent = none := by
    by_contra hu
    exact halive.1 (h.dead.mpr hu)
  have hlink : (s.clients i).link = .accepted := (h.link i).mpr hpeer
  refine ⟨ht, ?_, fun _ => by rw [hpeer]; rfl, fun j => ?_, fun j r e => ?_, ?_, fun j => ?_⟩
  · show replay (s.log ++ _) Ctl.zero = some t.ctl
    rw [replay_append, h.replay]
    simp only [Option.bind_some, replay, hctl, ↓reduceIte]
  · by_cases hj : j = i
    · subst hj
      rw [onClient_self]
      exact h.link j
    · rw [onClient_of_ne hj]
      exact h.link j
  · exact absurd (hu.symm.trans e) nofun
  · exact iff_of_false halive.2 (not_not_intro hu)
  · show Talk _ (handled j (s.log ++ _)) _
    rw [handled_append]
    by_cases hj : j = i
    · subst hj
      rw [onClient_self, if_pos rfl]
      have hp : System.pending j { ({ s with server := t } : System ι).onClient j
          fun c => { c with toServer := c.toServer.drop 255 } with
          log := s.log ++ [⟨j, cstr ((s.clients j).toServer.take 255), load, r⟩] } = some r := by
        rw [← hafter]
        apply pending_self
        · exact hu
        · exact hpeer
      rw [hp]
      exact (h.talk j).handle hne (by rw [hlink]; nofun) r
    · rw [onClient_of_ne hj, if_neg (Ne.symm hj)]
      have hp : System.pending j { ({ s with server := t } : System ι).onClient i
          fun c => { c with toServer := c.toServer.drop 255 } with
          log := s.log ++ [⟨i, cstr ((s.clients i).toServer.take 255), load, r⟩] } = none := by
        apply pending_of_ne
        · exact hu
        · exact hpeer
        · exact hj
      rw [hp, ← pending_of_ne hu hpeer hj]
      exact h.talk j

/-- The server writes a response to its client. -/
theorem Good.post (h : Good s) {t : Server} {i : ι} {r : CStr} (ht : Inv t)
    (hctl : t.ctl = s.server.ctl) (hpeer : s.peer = some i) (hbefore : s.server.pc.resp = some r)
    (hafter : t.pc.resp = none) (halive : s.server.pc ≠ .killed ∧ t.pc ≠ .killed)
    (hr : Response r) :
    Open (({ s with server := t } : System ι).onClient i
      fun c => { c with toClient := c.toClient ++ r }) := by
  have hu : s.unsent = none := by
    by_contra hu
    exact halive.1 (h.dead.mpr hu)
  refine ⟨ht, ?_, fun _ => ?_, fun j => ?_, fun j r e => ?_, ?_, fun j => ?_⟩
  · show replay s.log Ctl.zero = some t.ctl
    rw [hctl]
    exact h.replay
  · show s.peer.isSome = true
    rw [hpeer]
    rfl
  · by_cases hj : j = i
    · subst hj
      rw [onClient_self]
      exact h.link j
    · rw [onClient_of_ne hj]
      exact h.link j
  · exact absurd (hu.symm.trans e) nofun
  · exact iff_of_false halive.2 (not_not_intro hu)
  · have hp : System.pending j (({ s with server := t } : System ι).onClient i
        fun c => { c with toClient := c.toClient ++ r }) = none := by
      apply pending_none
      · exact hu
      · exact hafter
    rw [hp]
    have htalk := h.talk j
    by_cases hj : j = i
    · subst hj
      rw [pending_self hu hpeer, hbefore] at htalk
      rw [onClient_self]
      exact htalk.post hr
    · rw [pending_of_ne hu hpeer hj] at htalk
      rw [onClient_of_ne hj]
      exact htalk

/-- The write of a response kills the server: the client is gone. -/
theorem Good.die (h : Good s) {t : Server} {i : ι} {r : CStr} (ht : Inv t)
    (hctl : t.ctl = s.server.ctl) (hpeer : s.peer = some i) (hbefore : s.server.pc.resp = some r)
    (hkilled : t.pc = .killed) (halive : s.server.pc ≠ .killed)
    (hgone : (s.clients i).alive = false) :
    Open { s with server := t, unsent := some (i, r) } := by
  have hu : s.unsent = none := by
    by_contra hu
    exact halive (h.dead.mpr hu)
  refine ⟨ht, ?_, fun _ => ?_, h.link, fun j r e => ?_, ?_, fun j => ?_⟩
  · show replay s.log Ctl.zero = some t.ctl
    rw [hctl]
    exact h.replay
  · show s.peer.isSome = true
    rw [hpeer]
    rfl
  · cases e
    exact hgone
  · exact iff_of_true hkilled nofun
  · have htalk := h.talk j
    have hp : System.pending j { s with server := t, unsent := some (i, r) } =
        if i = j then some r else none := rfl
    rw [hp]
    by_cases hj : j = i
    · subst hj
      rw [pending_self hu hpeer, hbefore] at htalk
      rw [if_pos rfl]
      exact htalk
    · rw [pending_of_ne hu hpeer hj] at htalk
      rw [if_neg (Ne.symm hj)]
      exact htalk

/-- The connection of a client changes. -/
theorem Open.relink (h : Open s) {i : ι} {link : Link} (hl : (s.clients i).link ≠ .none)
    (hc : (s.clients i).link = .closed → link = .closed) (j : ι) :
    Talk ((s.onClient i fun c => { c with link := link }).clients j) (handled j s.log)
      (s.pending j) := by
  by_cases hj : j = i
  · subst hj
    rw [onClient_self]
    exact (h.talk j).relink hl hc
  · rw [onClient_of_ne hj]
    exact h.talk j

/-- The server hangs up on a client that it no longer serves. -/
theorem Open.hangUp (h : Open s) : Good s.hangUp := by
  unfold System.hangUp
  split
  · rename_i i hpeer
    split
    · rename_i hs
      exact { h with peer := fun _ => hs }
    · rename_i hs
      have hlink : (s.clients i).link = .accepted := (h.link i).mpr hpeer
      have hresp : s.server.pc.resp = none := by
        cases hpc : s.server.pc with
        | write l c r => rw [hpc] at hs; exact absurd rfl hs
        | _ => rfl
      refine { server := h.server, replay := h.replay, serves := fun e => absurd e hs, link := ?_,
               unsent := ?_, dead := h.dead, talk := ?_, peer := nofun }
      · intro j
        by_cases hj : j = i
        · subst hj
          exact iff_of_false (by rw [onClient_self]; nofun) nofun
        · refine iff_of_false (fun e => ?_) nofun
          rw [onClient_of_ne hj] at e
          rw [h.link j, hpeer] at e
          exact hj (Option.some.inj e).symm
      · intro j r e
        have hdead := h.unsent j r e
        by_cases hj : j = i
        · subst hj
          show ((s.onClient j fun c => { c with link := .closed }).clients j).alive = false
          rw [onClient_self]
          exact hdead
        · show ((s.onClient i fun c => { c with link := .closed }).clients j).alive = false
          rw [onClient_of_ne hj]
          exact hdead
      · intro j
        have hp : System.pending j { s.onClient i fun c => { c with link := .closed } with
            peer := none } = s.pending j := by
          cases hu : s.unsent with
          | none =>
            rw [pending_none hu hresp]
            apply pending_none
            · exact hu
            · exact hresp
          | some q =>
            unfold System.pending System.onClient
            simp only [hu]
        rw [hp]
        exact h.relink (by rw [hlink]; nofun) (fun _ => rfl) j
  · rename_i hpeer
    exact { h with peer := fun e => by rw [hpeer] at e; cases e }

/-- The connections of the backlog are closed with the listening socket. -/
theorem Good.shut (h : Good s) : Good s.shut := by
  unfold System.shut
  split
  · exact h
  · have hsame : ∀ i, ¬ (s.clients i).link = .queued →
        (if (s.clients i).link = .queued then { s.clients i with link := Link.closed }
          else s.clients i) = s.clients i := fun i hi => if_neg hi
    refine { server := h.server, replay := h.replay, serves := h.serves, link := ?_,
             unsent := ?_, dead := h.dead, talk := ?_, peer := h.peer }
    · intro i
      show (if _ then _ else _ : Client).link = .accepted ↔ _
      rw [← h.link i]
      split
      · rename_i hq
        rw [hq]
        exact iff_of_false nofun nofun
      · exact Iff.rfl
    · intro i r e
      show (if _ then _ else _ : Client).alive = false
      split
      · exact h.unsent i r e
      · exact h.unsent i r e
    · intro i
      show Talk (if _ then _ else _ : Client) (handled i s.log) (s.pending i)
      split
      · rename_i hq
        exact (h.talk i).relink (by rw [hq]; nofun) (fun _ => rfl)
      · exact h.talk i

theorem effect_read {i : ι} {buffer : List Char} {load : Load} {r : CStr} (j : Option ι)
    (resp : Option CStr) (hp : s.peer = some i) (hr : s.server.pc.resp = some r) :
    s.effect (.read (some buffer) load) j resp =
      { s.onClient i fun c => { c with toServer := c.toServer.drop 255 } with
        log := s.log ++ [⟨i, cstr buffer, load, r⟩] } := by
  unfold System.effect
  simp only [hp, hr]

theorem effect_write {i : ι} {ok : Bool} {r : CStr} (j : Option ι) (hp : s.peer = some i) :
    s.effect (.write ok) j (some r) =
      if ok then s.onClient i fun c => { c with toClient := c.toClient ++ r }
      else { s with unsent := some (i, r) } := by
  unfold System.effect
  simp only [hp]

/-- **One call of the server.** -/
theorem Good.call (h : Good s) {a : Act} {j : Option ι} {t : Server}
    (hj : s.answers a j = true) (ht : Server.step a s.server = some t) :
    Open (({ s with server := t } : System ι).effect a j s.server.pc.resp) := by
  have hinv : Inv t := inv_keeps_server s.server a t h.server trivial ht
  cases call_of_step ht with
  | accept pc ctl next =>
    obtain ⟨i, rfl, hq⟩ := Option.any_eq_true _ _ |>.mp hj
    exact h.accept hinv ctl (by rw [pc]; rfl) (by rw [next]; rfl)
      ⟨by rw [pc]; nofun, by rw [next]; nofun⟩ (by simpa using hq)
  | @handle l c buffer load res resp _ pc data ctl next =>
    obtain ⟨i, hpeer, hb⟩ := Option.any_eq_true _ _ |>.mp hj
    obtain ⟨rfl, -⟩ := of_decide_eq_true hb
    have hresp : t.pc.resp = some resp := by rw [next]; rfl
    rw [@effect_read _ _ { s with server := t } i _ load resp j _ hpeer hresp]
    exact h.handle hinv hpeer hresp ⟨by rw [pc]; nofun, by rw [next]; nofun⟩ data ctl
  | @write l c resp ok _ pc ctl next =>
    obtain ⟨i, hpeer, hok⟩ := Option.any_eq_true _ _ |>.mp hj
    obtain rfl : ok = (s.clients i).alive := by simpa using hok
    have hbefore : s.server.pc.resp = some resp := by rw [pc]; rfl
    have halive : s.server.pc ≠ .killed := by rw [pc]; nofun
    rw [hbefore, @effect_write _ _ { s with server := t } i _ resp j hpeer]
    split
    · rename_i hok
      rw [hok, if_pos rfl] at next
      exact h.post hinv ctl hpeer hbefore (by rw [next]; rfl) ⟨halive, by rw [next]; nofun⟩
        (h.server.response l c resp pc)
    · rename_i hok
      rw [if_neg hok] at next
      exact h.die hinv ctl hpeer hbefore next halive (by simpa using hok)
  | quiet act ctl before after alive serves =>
    have heff : ({ s with server := t } : System ι).effect a j s.server.pc.resp =
        { s with server := t } := by
      unfold System.effect
      split
      · exact absurd rfl (act _ true).1
      · simp only [after]
        split
        · rename_i e
          cases e
        · rfl
      · exact absurd rfl (act 0 _).2
      · rfl
    rw [heff]
    exact h.quiet hinv ctl before after alive serves

end Steps

/-- **Every step keeps the invariant.** -/
theorem good_keeps : (protocol : Machine (System ι) (Label ι)).Keeps (fun _ _ => True) Good := by
  intro s a s' hs _ h
  simp only [protocol, System.step] at h
  split at h
  · rename_i i input
    split at h
    · rename_i hen
      cases h
      obtain ⟨hpc, hlen⟩ := hen
      refine hs.client ((hs.talk i).runRepl hpc hlen) ?_ fun e => ?_
      · unfold Client.runRepl
        split
        · rfl
        · unfold Client.connectToDaemon
          split <;> rfl
        · unfold Client.sendCommand
          split <;> rfl
        · rfl
        · rfl
        · rfl
      · simp [Client.alive, hpc] at e
    · cases h
  · rename_i i ok
    split at h
    · rename_i hen
      cases h
      have htalk := hs.talk i
      refine hs.client (f := Client.connectReturns ok) (htalk.connectReturns hen.1 ok) ?_
        fun e => ?_
      · unfold Client.connectReturns
        split
        · rw [(htalk.new (htalk.connecting hen.1)).1]
          exact iff_of_false nofun nofun
        · rfl
      · simp [Client.alive, hen.1] at e
    · cases h
  · split at h
    · cases h
      exact hs.client (f := fun c => { c with pc := .ended }) ((hs.talk _).stop rfl)
        Iff.rfl fun _ => rfl
    · cases h
  · rename_i i
    split at h
    · rename_i hpc
      obtain ⟨c, hc, rfl⟩ := Option.map_eq_some_iff.mp h
      have hw : (s.clients i).alive = true := by simp [Client.alive, hpc]
      refine hs.client (f := fun _ => c) ((hs.talk i).receive (fun hp => ?_) hc) ?_ fun e => ?_
      · rw [hs.pending_link hw hp]
        nofun
      · unfold Client.receive at hc
        split at hc
        · cases hc; rfl
        split at hc
        · cases hc; rfl
        · cases hc
      · rw [hw] at e
        cases e
    · cases h
  · split at h
    · cases h
      exact hs.client (f := fun c => { c with pc := .interrupted }) ((hs.talk _).stop rfl)
        Iff.rfl fun _ => rfl
    · cases h
  · rename_i a j
    split at h
    · rename_i hj
      obtain ⟨t, ht, rfl⟩ := Option.map_eq_some_iff.mp h
      exact (hs.call hj ht).hangUp.shut
    · cases h

/-! ## Results -/

/-- **The control protocol.** For any number of clients and every order of the steps of all
processes: the daemon's state is that of handling the commands of the log one after the other, with
the responses of the log; each client's commands were handled in the order it sent them, each one
whole and once, but for at most one; it printed the responses to its own commands in their order;
at the prompt, while its connection is open, it has printed all of them; and while it waits, its
command or the response is under way, unless the command was empty. -/
theorem control_protocol (as : List (Label ι)) (s : System ι)
    (h : protocol.run as System.start = some s) :
    replay s.log Ctl.zero = some s.server.ctl ∧
      ∀ i, let c := s.clients i
        (∃ rest, c.commands = (handled i s.log).map Prod.fst ++ rest ∧ rest.length ≤ 1) ∧
        (∃ rest, (handled i s.log).map Prod.snd = c.printed ++ rest ∧ rest.length ≤ 1) ∧
        (c.pc = .prompt → c.link ≠ .closed → c.commands = (handled i s.log).map Prod.fst ∧
          c.printed = (handled i s.log).map Prod.snd) ∧
        (c.pc = .waiting → exchange c.toServer c.toClient (s.pending i) ≠ .idle ∨
          c.sent.getLast? = some []) := by
  have hs : Good s := good_keeps.run_all good_start h
  refine ⟨hs.replay, fun i => ?_⟩
  have ht := hs.talk i
  refine ⟨ht.agrees.handled_initial, ht.agrees.got_initial, fun hpc hlink => ?_, fun hpc => ?_⟩
  · obtain ⟨hp, hcl, hsv⟩ := ht.idle (by simp [Client.idle, hpc])
    have ha := ht.agrees
    rw [hp, exchange_idle (hsv.resolve_right hlink) hcl] at ha
    exact ha.settled
  · by_cases hidle : exchange (s.clients i).toServer (s.clients i).toClient (s.pending i) = .idle
    · exact .inr (ht.waiting hpc hidle)
    · exact .inl hidle

/-- Two clients; the daemon answers the first while the second is in the backlog. -/
def twoClients : List (Label Bool) :=
  [.line true "connect\n".toList, .call (.socket (some 3)) none, .call (.bind true) none,
    .call (.listen true) none, .connect true true, .line false "connect\n".toList,
    .connect false true, .call (.select .ready 5) none, .call (.accept (some 4)) (some true),
    .line false "gateway gw status\n".toList, .line true "gateway gw start\n".toList,
    .call (.select .ready 5) none, .call (.read (some "gw start".toList) Load.ok) none,
    .call (.write true) none, .receive true]

/-- The first client has its answer; the command of the second is still under way. -/
theorem control_protocol_two : ∃ s, protocol.run twoClients .start = some s ∧
    replay s.log Ctl.zero = some s.server.ctl ∧
    (s.clients true).printed = ["Started './gateways/gw.so'".toList] ∧
    (s.clients true).printed = (handled true s.log).map Prod.snd ∧
    (s.clients false).toServer = "gw status".toList ∧ handled false s.log = [] := by
  have hrun : (protocol.run twoClients .start).any (fun s =>
      decide ((s.clients true).printed = ["Started './gateways/gw.so'".toList] ∧
        (s.clients true).pc = .prompt ∧ (s.clients true).link ≠ .closed ∧
        (s.clients false).toServer = "gw status".toList ∧ handled false s.log = [])) = true := by
    decide +kernel
  obtain ⟨s, hs, h⟩ := Option.any_eq_true _ _ |>.mp hrun
  obtain ⟨hp, hpc, hl, hsv, hh⟩ := of_decide_eq_true h
  obtain ⟨hreplay, hall⟩ := control_protocol twoClients s hs
  exact ⟨s, hs, hreplay, hp, ((hall true).2.2.1 hpc hl).2, hsv, hh⟩

/-- **The daemon is killed by a client that does not wait.** When `SIGPIPE` has killed the daemon, a
client process ended with the response to its command still unwritten. -/
theorem daemon_survives (as : List (Label ι)) (s : System ι)
    (h : protocol.run as System.start = some s) (hk : s.server.pc = .killed) :
    ∃ i r, (s.clients i).alive = false ∧
      (handled i s.log).map Prod.snd = (s.clients i).printed ++ [r] := by
  have hs : Good s := good_keeps.run_all good_start h
  obtain ⟨⟨i, r⟩, hu⟩ := Option.ne_none_iff_exists'.mp (hs.dead.mp hk)
  have hp : s.pending i = some r := by
    unfold System.pending
    rw [hu]
    exact if_pos rfl
  have ht := hs.talk i
  have hsv : (s.clients i).toServer = [] := by
    by_contra hne
    rw [hp] at ht
    cases (ht.asked hne).1
  have ha := ht.agrees.replies
  rw [hp, exchange_served hsv] at ha
  exact ⟨i, r, hs.unsent i r hu, ha⟩

/-- A client is interrupted while it waits for its answer. -/
theorem daemon_survives_interrupted : ∃ (s : System Unit) (i : Unit) (r : CStr),
    s.server.pc = .killed ∧ (s.clients i).alive = false ∧
      (handled i s.log).map Prod.snd = (s.clients i).printed ++ [r] := by
  have hrun : (protocol.run
      [.line () "connect\n".toList, .call (.socket (some 3)) none, .call (.bind true) none,
        .call (.listen true) none, .connect () true, .call (.select .ready 5) none,
        .call (.accept (some 4)) (some ()), .line () "gw status\n".toList, .interrupt (),
        .call (.select .ready 5) none, .call (.read (some "gw status".toList) Load.ok) none,
        .call (.write false) none] (.start : System Unit)).any
      (fun s => decide (s.server.pc = .killed)) = true := by
    decide +kernel
  obtain ⟨s, hs, h⟩ := Option.any_eq_true _ _ |>.mp hrun
  obtain ⟨i, r, hr⟩ := daemon_survives _ s hs (of_decide_eq_true h)
  exact ⟨s, i, r, of_decide_eq_true h, hr⟩

end Control
end CoreCDTL
