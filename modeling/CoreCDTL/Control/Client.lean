import CoreCDTL.Lib.CString

/-!
# The control client (`ctl/corecdtl-ctl.c`)

`run_repl` reads lines and acts on them. A command goes to the daemon as it is, or without its
`gateway ` in front; `send_command` writes it and waits for one `read`.

* `inputLine` is the line in `input[256]`, `replLine` what `run_repl` does with it.
* `Client`: the process with its globals, `sent` and `printed` are its history.
* A client makes one connection at most: `g_connected` is never 0 again.
-/

namespace CoreCDTL
namespace Control

/-- `input[strcspn(input, "\n")] = 0` in what `fgets` left in `input`. -/
def inputLine (input : List Char) : CStr := (cstr input).takeWhile (· ≠ '\n')

/-- What `run_repl` does with a line. -/
inductive Repl where
  | exit
  | help
  | connect
  | showGateways
  | refused
  | send (command : CStr)
  deriving DecidableEq, Repr

/-- The tests of `run_repl` on a line, in their order. -/
def replLine (connected : Bool) (input : CStr) : Repl :=
  if input = "exit".toList then .exit
  else if input = "help".toList then .help
  else if input = "connect".toList then .connect
  else if input = "show gateways".toList then .showGateways
  else if input.take 8 = "gateway ".toList then
    if connected then .send (input.drop 8) else .refused
  else if connected then .send input
  else .refused

/-- Where the process is: at the prompt, in the waits of `connect_to_daemon`, in the `read` of
`send_command`, at its end, or killed by `SIGPIPE` or from outside. -/
inductive ClientPc where
  | prompt
  | connecting
  | waiting
  | ended
  | sigpipe
  | interrupted
  deriving DecidableEq, Repr

/-- The connection of a client: none, in the backlog of the listening socket, accepted, or closed
by the daemon. -/
inductive Link where
  | none
  | queued
  | accepted
  | closed
  deriving DecidableEq, Repr

/-- A client process, its connection with the bytes that are on their way in either direction, the
commands it sent and the answers it printed. -/
structure Client where
  pc : ClientPc
  connected : Bool
  link : Link
  toServer : List Char
  toClient : List Char
  sent : List CStr
  printed : List CStr
  deriving DecidableEq, Repr

def Client.start : Client where
  pc := .prompt
  connected := false
  link := .none
  toServer := []
  toClient := []
  sent := []
  printed := []

/-- The process runs, so its end of the connection is open. -/
def Client.alive (c : Client) : Bool := c.pc = .prompt ∨ c.pc = .connecting ∨ c.pc = .waiting

/-- The process does not wait for an answer. -/
def Client.idle (c : Client) : Bool := c.pc = .prompt ∨ c.pc = .connecting

/-- `send_command` up to its `read`. A write to a closed connection raises `SIGPIPE`. -/
def Client.sendCommand (command : CStr) (c : Client) : Client :=
  if c.link = .closed then { c with pc := .sigpipe }
  else { c with
    pc := .waiting, toServer := c.toServer ++ command, sent := c.sent ++ [command] }

/-- `connect_to_daemon` up to its first wait: it sends `SIGUSR1`. -/
def Client.connectToDaemon (c : Client) : Client :=
  if c.connected then c else { c with pc := .connecting }

/-- The return of `connect_to_daemon`; `ok` says that one of its calls of `connect` succeeded. -/
def Client.connectReturns (ok : Bool) (c : Client) : Client :=
  if ok then { c with pc := .prompt, connected := true, link := .queued }
  else { c with pc := .prompt }

/-- `run_repl` on the line that `fgets` left in `input`. -/
def Client.runRepl (input : List Char) (c : Client) : Client :=
  match replLine c.connected (inputLine input) with
  | .exit => { c with pc := .ended }
  | .connect => c.connectToDaemon
  | .send command => c.sendCommand command
  | .help | .showGateways | .refused => c

/-- The `read` of `send_command`: the first bytes on their way, at most 255, are printed. With the
connection closed and nothing on its way it returns 0. -/
def Client.receive (c : Client) : Option Client :=
  if c.toClient ≠ [] then
    some { c with
      pc := .prompt, toClient := c.toClient.drop 255
      printed := c.printed ++ [cstr (c.toClient.take 255)] }
  else if c.link = .closed then some { c with pc := .prompt }
  else none

/-! ## The commands -/

theorem inputLine_fits {input : List Char} (h : input.length ≤ 255) :
    Fits 255 (inputLine input) where
  noNul := fun hm => nul_not_mem_cstr input ((List.takeWhile_prefix _).subset hm)
  length_le := by
    have h₁ : (inputLine input).length ≤ (cstr input).length :=
      (List.takeWhile_prefix _).length_le
    have h₂ : (cstr input).length ≤ input.length := (List.takeWhile_prefix _).length_le
    omega

/-- A command that the client sends fits in the buffer of the daemon. -/
theorem replLine_fits {connected : Bool} {input : CStr} (h : Fits 255 input) {command : CStr}
    (hs : replLine connected input = .send command) : Fits 255 command ∧ connected = true := by
  have hdrop : Fits 255 (input.drop 8) := by
    refine ⟨fun hm => h.noNul (List.mem_of_mem_drop hm), ?_⟩
    have := h.length_le
    rw [List.length_drop]
    omega
  unfold replLine at hs
  split at hs
  · cases hs
  split at hs
  · cases hs
  split at hs
  · cases hs
  split at hs
  · cases hs
  split at hs
  · split at hs
    · rename_i hc
      cases hs
      exact ⟨hdrop, hc⟩
    · cases hs
  · split at hs
    · rename_i hc
      cases hs
      exact ⟨h, hc⟩
    · cases hs

end Control
end CoreCDTL
