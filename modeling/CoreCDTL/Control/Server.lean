import CoreCDTL.Gateway.Ctl

/-!
# The control server (`core/core_ctl.c`)

`unix_sock_ctl_run` makes the listening socket, accepts one client after the other and answers
each piece of text it reads with the response of `handle_ctl_command`.

* A state is between two system calls (`Pc`) and an action is the outcome of the next one.
  `Offered` is what the kernel promises: a new descriptor is not open, and `read` gives at most as
  many bytes as the buffer takes.
* `fds` are the descriptors the function has open; to close one that is not open has no step.
* `select` writes the time that was left into `timeout`.
* `Inv`: the open descriptors are those the function still has to close, and every `select` waits
  for `CONNECTION_TIMEOUT_SEC`.
* `server_clean`: this in every state of every run, with every outcome of the calls handled.
-/

namespace CoreCDTL
namespace Control

open Gateway

def CONNECTION_TIMEOUT_SEC : Nat := 30

/-- The `timeval` of `CONNECTION_TIMEOUT_SEC`, in microseconds. -/
def connectionTimeout : Nat := CONNECTION_TIMEOUT_SEC * 1000000

/-- The next call of `unix_sock_ctl_run`; `out` is outside of it. The call of `socket` is the first
one, so it is made from `out`. -/
inductive Pc where
  | out
  | bind (listenFd : Nat)
  | listen (listenFd : Nat)
  | select (listenFd : Nat)
  | accept (listenFd : Nat)
  | selectClient (listenFd clientFd : Nat)
  | read (listenFd clientFd : Nat)
  | write (listenFd clientFd : Nat) (resp : CStr)
  | killed
  deriving DecidableEq, Repr

/-- The descriptors that are still to be closed. -/
def Pc.owned : Pc → List Nat
  | .out | .killed => []
  | .bind l | .listen l | .select l | .accept l => [l]
  | .selectClient l c | .read l c | .write l c _ => [c, l]

/-- A wait in `select`. -/
def Pc.waits : Pc → Bool
  | .select _ | .selectClient _ _ => true
  | _ => false

/-- Between `accept` and the `close` of the client's descriptor. -/
def Pc.serves : Pc → Bool
  | .selectClient _ _ | .read _ _ | .write _ _ _ => true
  | _ => false

/-- The state of the server: `path` says whether `SOCKET_PATH` is bound, `result` is what
`unix_sock_ctl_run` returned last. -/
structure Server where
  pc : Pc
  fds : List Nat
  path : Bool
  timeout : Nat
  result : Option Int
  ctl : Ctl
  deriving DecidableEq, Repr

/-- At program start. -/
def Server.start : Server where
  pc := .out
  fds := []
  path := false
  timeout := 0
  result := none
  ctl := Ctl.zero

/-- The result of `select`: -1, 0 or the descriptor is ready. -/
inductive Selected where
  | error
  | timeout
  | ready
  deriving DecidableEq, Repr

/-- The outcome of a call. A `write` whose reader is gone raises `SIGPIPE`. -/
inductive Act where
  | socket (fd : Option Nat)
  | bind (ok : Bool)
  | listen (ok : Bool)
  | select (sel : Selected) (left : Nat)
  | accept (fd : Option Nat)
  | read (data : Option (List Char)) (l : Load)
  | write (ok : Bool)
  deriving DecidableEq, Repr

/-! ## The function -/

/-- `close(fd)`. -/
def Server.close (fd : Nat) (s : Server) : Option Server :=
  if fd ∈ s.fds then some { s with fds := s.fds.erase fd } else none

/-- `create_and_bind_socket` failed after `socket`, so the function returns -1. -/
def Server.giveUp (listenFd : Nat) (s : Server) : Option Server :=
  (s.close listenFd).map fun s => { s with pc := .out, result := some (-1) }

/-- After the outer loop: `close(listen_fd)`, `unlink(SOCKET_PATH)` and `return 0`. -/
def Server.leave (listenFd : Nat) (s : Server) : Option Server :=
  (s.close listenFd).map fun s => { s with pc := .out, path := false, result := some 0 }

/-- After the inner loop: `close(client_fd)`, and the timeout is set again. -/
def Server.drop (listenFd clientFd : Nat) (s : Server) : Option Server :=
  (s.close clientFd).map fun s => { s with pc := .select listenFd, timeout := connectionTimeout }

/-- The return of the next call of `unix_sock_ctl_run`, and what the function does up to the call
after it. -/
def Server.step (a : Act) (s : Server) : Option Server :=
  match s.pc, a with
  | .out, .socket none => some { s with result := some (-1) }
  | .out, .socket (some fd) =>
    if fd ∈ s.fds then none
    else some { s with pc := .bind fd, fds := fd :: s.fds, path := false }
  | .bind l, .bind ok =>
    if ok then some { s with pc := .listen l, path := true } else s.giveUp l
  | .listen l, .listen ok =>
    if ok then some { s with pc := .select l, timeout := connectionTimeout } else s.giveUp l
  | .select l, .select sel left =>
    if sel = .ready then some { s with pc := .accept l, timeout := left }
    else ({ s with timeout := left } : Server).leave l
  | .accept l, .accept none => s.leave l
  | .accept l, .accept (some c) =>
    if c ∈ s.fds then none
    else some { s with
      pc := .selectClient l c, fds := c :: s.fds, timeout := connectionTimeout }
  | .selectClient l c, .select sel left =>
    if sel = .ready then some { s with pc := .read l c, timeout := left }
    else ({ s with timeout := left } : Server).drop l c
  | .read l c, .read none _ => s.drop l c
  | .read l c, .read (some buffer) load =>
    if 255 < buffer.length then none
    else if buffer = [] then s.drop l c
    else (handleCtlCommand (cstr buffer) 256 load s.ctl).map fun p =>
      { s with pc := .write l c p.2.1, ctl := p.2.2 }
  | .write l c _, .write ok =>
    if ok then some { s with pc := .selectClient l c, timeout := connectionTimeout }
    else some { s with pc := .killed, fds := [] }
  | _, _ => none

def server : Machine Server Act := ⟨Server.step⟩

/-- The outcomes that the next call can have. -/
def Offered (s : Server) : Act → Prop
  | .socket fd => s.pc = .out ∧ ∀ n ∈ fd, n ∉ s.fds
  | .bind _ => ∃ l, s.pc = .bind l
  | .listen _ => ∃ l, s.pc = .listen l
  | .select _ _ => s.pc.waits = true
  | .accept fd => (∃ l, s.pc = .accept l) ∧ ∀ n ∈ fd, n ∉ s.fds
  | .read data _ => (∃ l c, s.pc = .read l c) ∧ ∀ d ∈ data, d.length ≤ 255
  | .write _ => ∃ l c resp, s.pc = .write l c resp

/-! ## The responses -/

/-- A response is some text that fits in `resp[256]`. -/
structure Response (resp : CStr) : Prop where
  ne_nil : resp ≠ []
  fits : Fits 255 resp

/-- What `snprintf` leaves of a text with a first character. -/
theorem response_snprintf {c : Char} (hc : c ≠ nul) (text : List Char) :
    Response (snprintf 256 (c :: text)) where
  ne_nil := by
    unfold snprintf
    rw [List.take_cons (by decide), cstr, List.takeWhile_cons_of_pos (by simpa using hc)]
    exact List.cons_ne_nil _ _
  fits := ⟨nul_not_mem_cstr _, Nat.le_of_lt_succ (snprintf_length_lt (by decide) _)⟩

theorem response_of_head {text : List Char} (h : text.head?.any (· ≠ nul) = true) :
    Response (snprintf 256 text) := by
  cases text with
  | nil => cases h
  | cons c t => exact response_snprintf (by simpa using h) t

theorem handleCtlCommand_response {command : CStr} {l : Load} {c c' : Ctl} {res : Int}
    {resp : CStr} (h : handleCtlCommand command 256 l c = some (res, resp, c')) :
    Response resp := by
  have started : ∀ (verb : String) (p : Prop) [Decidable p] (path t : CStr),
      verb.toList.head?.any (· ≠ nul) = true →
      Response (snprintf 256 (if p then doneText verb.toList path else
        failText t path ++ ": ".toList ++ gatewayStatusToStr res)) := by
    intro verb p _ path t hv
    split
    · apply response_of_head
      unfold doneText
      cases hverb : verb.toList with
      | nil => rw [hverb] at hv; cases hv
      | cons c t => rw [hverb] at hv; exact hv
    · exact response_of_head rfl
  unfold handleCtlCommand at h
  split at h
  · cases h
    exact response_of_head rfl
  · simp only at h
    split at h
    · obtain ⟨p, -, hp⟩ := Option.map_eq_some_iff.mp h
      cases hp
      exact started "Started" _ _ _ rfl
    split at h
    · split at h
      · obtain ⟨g, -, hp⟩ := Option.map_eq_some_iff.mp h
        cases hp
        exact response_of_head rfl
      · cases h
        exact response_of_head rfl
    split at h
    · obtain ⟨p, -, hp⟩ := Option.map_eq_some_iff.mp h
      cases hp
      exact started "Restarted" _ _ _ rfl
    split at h
    · cases h
      exact response_of_head rfl
    · cases h
      exact response_of_head rfl

/-! ## The invariant -/

/-- Between two calls: the open descriptors are the owned ones, a wait is a full one, the socket
file is gone when the function has returned 0, and a response fits. -/
structure Inv (s : Server) : Prop where
  fds : s.fds = s.pc.owned
  nodup : s.fds.Nodup
  waits : s.pc.waits = true → s.timeout = connectionTimeout
  path : s.pc = .out → s.result = some 0 → s.path = false
  gateway : ∃ running, Gateway.Inv ⟨s.ctl, running⟩
  response : ∀ l c resp, s.pc = .write l c resp → Response resp

theorem inv_start : Inv .start where
  fds := rfl
  nodup := List.nodup_nil
  waits := nofun
  path := nofun
  gateway := ⟨false, inv_zero⟩
  response := nofun

variable {s s' : Server}

/-- The function gives up the only descriptor it has. -/
theorem close_listen {l : Nat} (h : s.fds = [l]) : s.close l = some { s with fds := [] } := by
  unfold Server.close
  rw [h]
  simp

/-- The client's descriptor is closed, the listening one stays. -/
theorem close_client {l c : Nat} (h : s.fds = [c, l]) :
    s.close c = some { s with fds := [l] } := by
  unfold Server.close
  rw [h]
  simp

theorem giveUp_eq {l : Nat} (h : s.fds = [l]) :
    s.giveUp l = some { s with pc := .out, fds := [], result := some (-1) } := by
  unfold Server.giveUp
  rw [close_listen h]
  rfl

theorem leave_eq {l : Nat} (h : s.fds = [l]) :
    s.leave l = some { s with pc := .out, fds := [], path := false, result := some 0 } := by
  unfold Server.leave
  rw [close_listen h]
  rfl

theorem drop_eq {l c : Nat} (h : s.fds = [c, l]) :
    s.drop l c = some { s with pc := .select l, fds := [l], timeout := connectionTimeout } := by
  unfold Server.drop
  rw [close_client h]
  rfl

theorem inv_out {fds : List Nat} (hi : Inv s) (h : fds = []) {path : Bool} {result : Option Int}
    (hp : result = some 0 → path = false) :
    Inv { s with pc := .out, fds := fds, path := path, result := result } where
  fds := h
  nodup := h ▸ List.nodup_nil
  waits := nofun
  path := fun _ => hp
  gateway := hi.gateway
  response := nofun

/-- The function calls `select` with the full timeout. -/
theorem inv_waits {pc : Pc} {fds : List Nat} (hi : Inv s) (hpc : pc.waits = true)
    (h : fds = pc.owned) (hn : fds.Nodup) :
    Inv { s with pc := pc, fds := fds, timeout := connectionTimeout } where
  fds := h
  nodup := hn
  waits := fun _ => rfl
  path := fun h => by
    obtain rfl : pc = .out := h
    cases hpc
  gateway := hi.gateway
  response := fun l c resp h => by
    obtain rfl : pc = .write l c resp := h
    cases hpc

/-- **One call.** Every outcome that the call can have is handled, and keeps the invariant. -/
theorem step_inv (hi : Inv s) {a : Act} (ho : Offered s a) :
    ∃ s', server.step a s = some s' ∧ Inv s' := by
  cases a with
  | socket fd =>
    obtain ⟨hpc, hnew⟩ := ho
    have hfds : s.fds = [] := by rw [hi.fds, hpc]; rfl
    cases fd with
    | none =>
      refine ⟨{ s with result := some (-1) }, ?_, ?_⟩
      · simp only [server, Server.step, hpc]
      · have h : Inv { s with pc := .out, result := some (-1) } := inv_out hi hfds nofun
        rw [← hpc] at h
        exact h
    | some fd =>
      have hfd : fd ∉ s.fds := hnew fd rfl
      refine ⟨{ s with pc := .bind fd, fds := fd :: s.fds, path := false }, ?_, ?_⟩
      · simp only [server, Server.step, hpc, if_neg hfd]
      · exact ⟨by rw [hfds]; rfl, List.nodup_cons.mpr ⟨hfd, hi.nodup⟩, nofun,
          nofun, hi.gateway, nofun⟩
  | bind ok =>
    obtain ⟨l, hpc⟩ := ho
    have hfds : s.fds = [l] := by rw [hi.fds, hpc]; rfl
    simp only [server, Server.step, hpc]
    cases ok with
    | true =>
      exact ⟨_, rfl, hfds, hi.nodup, nofun, nofun, hi.gateway,
        nofun⟩
    | false =>
      exact ⟨_, giveUp_eq hfds, inv_out hi rfl nofun⟩
  | listen ok =>
    obtain ⟨l, hpc⟩ := ho
    have hfds : s.fds = [l] := by rw [hi.fds, hpc]; rfl
    simp only [server, Server.step, hpc]
    cases ok with
    | true => exact ⟨_, rfl, inv_waits hi rfl hfds hi.nodup⟩
    | false => exact ⟨_, giveUp_eq hfds, inv_out hi rfl nofun⟩
  | select sel left =>
    have hpc : (∃ l, s.pc = .select l) ∨ ∃ l c, s.pc = .selectClient l c := by
      have hw : s.pc.waits = true := ho
      cases h : s.pc with
      | select l => exact .inl ⟨l, rfl⟩
      | selectClient l c => exact .inr ⟨l, c, rfl⟩
      | _ => rw [h] at hw; cases hw
    rcases hpc with ⟨l, hpc⟩ | ⟨l, c, hpc⟩
    · have hfds : s.fds = [l] := by rw [hi.fds, hpc]; rfl
      simp only [server, Server.step, hpc]
      by_cases hr : sel = .ready
      · rw [if_pos hr]
        exact ⟨_, rfl, hfds, hi.nodup, nofun, nofun, hi.gateway,
          nofun⟩
      · rw [if_neg hr]
        exact ⟨_, leave_eq hfds, ⟨rfl, List.nodup_nil, nofun, fun _ _ => rfl,
          hi.gateway, nofun⟩⟩
    · have hfds : s.fds = [c, l] := by rw [hi.fds, hpc]; rfl
      simp only [server, Server.step, hpc]
      by_cases hr : sel = .ready
      · rw [if_pos hr]
        exact ⟨_, rfl, hfds, hi.nodup, nofun, nofun, hi.gateway,
          nofun⟩
      · rw [if_neg hr]
        have hd : Inv { s with pc := .select l, fds := [l], timeout := connectionTimeout } :=
          inv_waits hi rfl rfl (List.nodup_cons.mpr ⟨nofun, List.nodup_nil⟩)
        refine ⟨_, drop_eq ?_, hd⟩
        exact hfds
  | accept fd =>
    obtain ⟨⟨l, hpc⟩, hnew⟩ := ho
    have hfds : s.fds = [l] := by rw [hi.fds, hpc]; rfl
    simp only [server, Server.step, hpc]
    cases fd with
    | none =>
      refine ⟨_, leave_eq hfds, inv_out hi rfl fun _ => rfl⟩
    | some c =>
      have hc : c ∉ s.fds := hnew c rfl
      simp only [if_neg hc]
      exact ⟨_, rfl, inv_waits hi rfl (by rw [hfds]; rfl) (List.nodup_cons.mpr ⟨hc, hi.nodup⟩)⟩
  | read data load =>
    obtain ⟨⟨l, c, hpc⟩, hlen⟩ := ho
    have hfds : s.fds = [c, l] := by rw [hi.fds, hpc]; rfl
    have hdrop : Inv { s with pc := .select l, fds := [l], timeout := connectionTimeout } :=
      inv_waits hi rfl rfl (List.nodup_cons.mpr ⟨nofun, List.nodup_nil⟩)
    simp only [server, Server.step, hpc]
    cases data with
    | none => exact ⟨_, drop_eq hfds, hdrop⟩
    | some buffer =>
      have hb : ¬ 255 < buffer.length := Nat.not_lt.mpr (hlen buffer rfl)
      simp only [if_neg hb]
      by_cases hnil : buffer = []
      · rw [if_pos hnil]
        exact ⟨_, drop_eq hfds, hdrop⟩
      · rw [if_neg hnil]
        obtain ⟨running, hg⟩ := hi.gateway
        obtain ⟨⟨res, resp, hh⟩, -⟩ := handleCtlCommand_spec hg (cstr buffer, load)
        obtain ⟨ctl, hctl, hg'⟩ := hh.returns
        refine ⟨{ s with pc := .write l c resp, ctl := ctl }, ?_, ?_⟩
        · rw [hctl]
          rfl
        · exact ⟨hfds, hi.nodup, nofun, nofun, ⟨_, hg'⟩,
            fun _ _ _ h => by cases h; exact handleCtlCommand_response hctl⟩
  | write ok =>
    obtain ⟨l, c, resp, hpc⟩ := ho
    have hfds : s.fds = [c, l] := by rw [hi.fds, hpc]; rfl
    simp only [server, Server.step, hpc]
    cases ok with
    | true =>
      exact ⟨_, rfl, inv_waits hi rfl hfds hi.nodup⟩
    | false =>
      exact ⟨_, rfl, rfl, List.nodup_nil, nofun, nofun, hi.gateway,
        nofun⟩

/-- A step is the outcome of a call that can have it. -/
theorem offered_of_step {a : Act} (h : server.step a s = some s') : Offered s a := by
  simp only [server, Server.step] at h
  split at h
  case h_1 hpc => exact ⟨hpc, nofun⟩
  case h_2 fd hpc =>
    split at h
    · cases h
    · exact ⟨hpc, fun n hn => by cases hn; assumption⟩
  case h_3 l ok hpc => exact ⟨l, hpc⟩
  case h_4 l ok hpc => exact ⟨l, hpc⟩
  case h_5 l sel left hpc => show s.pc.waits = true; rw [hpc]; rfl
  case h_6 l hpc => exact ⟨⟨l, hpc⟩, nofun⟩
  case h_7 l c hpc =>
    split at h
    · cases h
    · exact ⟨⟨l, hpc⟩, fun n hn => by cases hn; assumption⟩
  case h_8 l c sel left hpc => show s.pc.waits = true; rw [hpc]; rfl
  case h_9 l c load hpc => exact ⟨⟨l, c, hpc⟩, nofun⟩
  case h_10 l c buffer load hpc =>
    split at h
    · cases h
    · exact ⟨⟨l, c, hpc⟩, fun d hd => by cases hd; omega⟩
  case h_11 l c resp ok hpc => exact ⟨l, c, resp, hpc⟩
  case h_12 => cases h

theorem inv_keeps_server : server.Keeps (fun _ _ => True) Inv := by
  intro s a s' hi _ h
  obtain ⟨t, ht, hit⟩ := step_inv hi (offered_of_step h)
  rw [h] at ht
  cases ht
  exact hit

/-- The response that is about to be written. -/
def Pc.resp : Pc → Option CStr
  | .write _ _ resp => some resp
  | _ => none

/-- A client is accepted, a command is handled, a response is written, or none of these happens. -/
inductive Call (s : Server) : Act → Server → Prop where
  | accept {l c : Nat} {s' : Server} (pc : s.pc = .accept l) (ctl : s'.ctl = s.ctl)
      (next : s'.pc = .selectClient l c) : Call s (.accept (some c)) s'
  | handle {l c : Nat} {buffer : List Char} {load : Load} {res : Int} {resp : CStr} {s' : Server}
      (pc : s.pc = .read l c) (data : buffer ≠ [])
      (ctl : handleCtlCommand (cstr buffer) 256 load s.ctl = some (res, resp, s'.ctl))
      (next : s'.pc = .write l c resp) : Call s (.read (some buffer) load) s'
  | write {l c : Nat} {resp : CStr} {ok : Bool} {s' : Server} (pc : s.pc = .write l c resp)
      (ctl : s'.ctl = s.ctl) (next : s'.pc = if ok then .selectClient l c else .killed) :
      Call s (.write ok) s'
  | quiet {a : Act} {s' : Server} (act : ∀ c ok, a ≠ .accept (some c) ∧ a ≠ .write ok)
      (ctl : s'.ctl = s.ctl) (before : s.pc.resp = none) (after : s'.pc.resp = none)
      (alive : s.pc ≠ .killed ∧ s'.pc ≠ .killed)
      (serves : s'.pc.serves = true → s.pc.serves = true) : Call s a s'

theorem close_some {fd : Nat} (h : s.close fd = some s') : s'.ctl = s.ctl := by
  unfold Server.close at h
  split at h
  · cases h; rfl
  · cases h

theorem giveUp_some {l : Nat} (h : s.giveUp l = some s') : s'.ctl = s.ctl ∧ s'.pc = .out := by
  obtain ⟨u, hu, rfl⟩ := Option.map_eq_some_iff.mp h
  have hctl : u.ctl = s.ctl := close_some hu
  exact ⟨hctl, rfl⟩

theorem leave_some {l : Nat} (h : s.leave l = some s') : s'.ctl = s.ctl ∧ s'.pc = .out := by
  obtain ⟨u, hu, rfl⟩ := Option.map_eq_some_iff.mp h
  have hctl : u.ctl = s.ctl := close_some hu
  exact ⟨hctl, rfl⟩

theorem drop_some {l c : Nat} (h : s.drop l c = some s') :
    s'.ctl = s.ctl ∧ s'.pc = .select l := by
  obtain ⟨u, hu, rfl⟩ := Option.map_eq_some_iff.mp h
  have hctl : u.ctl = s.ctl := close_some hu
  exact ⟨hctl, rfl⟩

theorem call_of_step {a : Act} (h : server.step a s = some s') : Call s a s' := by
  -- A step between two calls that have no client and no response.
  have idle : ∀ {pc pc' : Pc} {a : Act}, (∀ c ok, a ≠ .accept (some c) ∧ a ≠ .write ok) →
      s.pc = pc → s'.pc = pc' → s'.ctl = s.ctl → pc.resp = none → pc'.resp = none →
      pc ≠ .killed → pc' ≠ .killed → (pc'.serves = true → pc.serves = true) → Call s a s' := by
    intro pc pc' a ha h₁ h₂ h₃ h₄ h₅ h₆ h₇ h₈
    subst h₁ h₂
    exact .quiet ha h₃ h₄ h₅ ⟨h₆, h₇⟩ h₈
  simp only [server, Server.step] at h
  split at h
  case h_1 hpc => cases h; exact idle (by simp) hpc hpc rfl rfl rfl nofun nofun id
  case h_2 fd hpc =>
    split at h
    · cases h
    · cases h; exact idle (by simp) hpc rfl rfl rfl rfl nofun nofun nofun
  case h_3 l ok hpc =>
    split at h
    · cases h; exact idle (by simp) hpc rfl rfl rfl rfl nofun nofun nofun
    · exact idle (by simp) hpc (giveUp_some h).2 (giveUp_some h).1 rfl rfl nofun nofun nofun
  case h_4 l ok hpc =>
    split at h
    · cases h; exact idle (by simp) hpc rfl rfl rfl rfl nofun nofun nofun
    · exact idle (by simp) hpc (giveUp_some h).2 (giveUp_some h).1 rfl rfl nofun nofun nofun
  case h_5 l sel left hpc =>
    split at h
    · cases h; exact idle (by simp) hpc rfl rfl rfl rfl nofun nofun nofun
    · exact idle (by simp) hpc (leave_some h).2 (leave_some h).1 rfl rfl nofun nofun nofun
  case h_6 l hpc => exact idle (by simp) hpc (leave_some h).2 (leave_some h).1 rfl rfl nofun nofun nofun
  case h_7 l c hpc =>
    split at h
    · cases h
    · cases h; exact .accept hpc rfl rfl
  case h_8 l c sel left hpc =>
    split at h
    · cases h; exact idle (by simp) hpc rfl rfl rfl rfl nofun nofun id
    · exact idle (by simp) hpc (drop_some h).2 (drop_some h).1 rfl rfl nofun nofun nofun
  case h_9 l c load hpc => exact idle (by simp) hpc (drop_some h).2 (drop_some h).1 rfl rfl nofun nofun nofun
  case h_10 l c buffer load hpc =>
    split at h
    · cases h
    split at h
    · exact idle (by simp) hpc (drop_some h).2 (drop_some h).1 rfl rfl nofun nofun nofun
    · rename_i hne
      obtain ⟨p, hp, rfl⟩ := Option.map_eq_some_iff.mp h
      exact .handle hpc hne hp rfl
  case h_11 l c resp ok hpc =>
    split at h
    · rename_i hok
      cases h
      exact .write hpc rfl (if_pos hok).symm
    · rename_i hok
      cases h
      exact .write hpc rfl (if_neg hok).symm
  case h_12 => cases h

/-- **The server keeps its descriptors.** In every state of every run from program start, through
any number of calls of `unix_sock_ctl_run`: the open descriptors are those that the function still
has to close (none when it has returned), every wait is for the full `CONNECTION_TIMEOUT_SEC`, the
socket file is gone after a return of 0, and each outcome of the next call is handled. -/
theorem server_clean (as : List Act) (s : Server) (h : server.run as .start = some s) :
    s.fds = s.pc.owned ∧ s.fds.Nodup ∧ (s.pc.waits = true → s.timeout = connectionTimeout) ∧
      (s.pc = .out → s.result = some 0 → s.path = false) ∧
      ∀ a, Offered s a ↔ ∃ s', server.step a s = some s' := by
  have hi := inv_keeps_server.run_all inv_start h
  refine ⟨hi.fds, hi.nodup, hi.waits, hi.path, fun a => ⟨fun ho => ?_, fun ⟨s', h⟩ => ?_⟩⟩
  · obtain ⟨s', hs', -⟩ := step_inv hi ho
    exact ⟨s', hs'⟩
  · exact offered_of_step h

/-- While a client is served. -/
theorem server_clean_serving : ∃ s, server.run
      [.socket (some 3), .bind true, .listen true, .select .ready 7, .accept (some 4)] .start =
        some s ∧ s.fds = [4, 3] ∧ s.fds = s.pc.owned ∧ s.timeout = connectionTimeout := by
  have hrun : (server.run
      [.socket (some 3), .bind true, .listen true, .select .ready 7, .accept (some 4)] .start).any
        (fun s => decide (s.fds = [4, 3] ∧ s.pc.waits = true)) = true := by
    decide +kernel
  obtain ⟨s, hs, h⟩ := Option.any_eq_true _ _ |>.mp hrun
  obtain ⟨hfds, hw⟩ := of_decide_eq_true h
  obtain ⟨howned, -, hwaits, -⟩ := server_clean _ s hs
  exact ⟨s, hs, hfds, howned, hwaits hw⟩

end Control
end CoreCDTL
