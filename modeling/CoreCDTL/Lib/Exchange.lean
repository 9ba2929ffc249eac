import Mathlib.Data.List.Basic

/-!
# Stop-and-wait exchanges

A requester sends one request at a time to a responder and waits for the answer.

* `Exchange`: what is under way between the two.
* `Exchange.Agrees`: the requests sent, the requests handled with their answers, and the answers
  received differ by what is under way and by nothing else.
* `ask`, `serve`, `post`, `take`: the four steps keep this.
* `Agrees.settled`: with nothing under way, every request was handled and every answer received.
-/

namespace CoreCDTL

/-- What is under way: nothing, a request, an answer that the responder has not sent yet, or an
answer. -/
inductive Exchange (α β : Type) where
  | idle
  | asked (a : α)
  | served (b : β)
  | answered (b : β)
  deriving DecidableEq, Repr

namespace Exchange

variable {α β : Type}

/-- The request under way. -/
def request : Exchange α β → List α
  | asked a => [a]
  | _ => []

/-- The answer under way. -/
def reply : Exchange α β → List β
  | served b => [b]
  | answered b => [b]
  | _ => []

/-- The books of the two parties: what was `sent`, what was `handled` and what was `got`. -/
structure Agrees (sent : List α) (handled : List (α × β)) (got : List β) (e : Exchange α β) :
    Prop where
  requests : sent = handled.map Prod.fst ++ e.request
  replies : handled.map Prod.snd = got ++ e.reply

variable {sent : List α} {handled : List (α × β)} {got : List β}

theorem agrees_nil : Agrees ([] : List α) ([] : List (α × β)) [] idle := ⟨rfl, rfl⟩

namespace Agrees

/-- The requester sends a request. -/
theorem ask (h : Agrees sent handled got idle) (a : α) :
    Agrees (sent ++ [a]) handled got (asked a) where
  requests := by
    rw [h.requests]
    simp only [request, List.append_nil]
  replies := h.replies

/-- The responder handles the request. -/
theorem serve {a : α} (h : Agrees sent handled got (asked a)) (b : β) :
    Agrees sent (handled ++ [(a, b)]) got (served b) where
  requests := by
    rw [h.requests, List.map_append]
    simp only [request, List.map_cons, List.map_nil, List.append_nil]
  replies := by
    rw [List.map_append, h.replies]
    simp only [reply, List.map_cons, List.map_nil, List.append_nil]

/-- The responder sends the answer. -/
theorem post {b : β} (h : Agrees sent handled got (served b)) :
    Agrees sent handled got (answered b) :=
  ⟨h.requests, h.replies⟩

/-- The requester receives the answer. -/
theorem take {b : β} (h : Agrees sent handled got (answered b)) :
    Agrees sent handled (got ++ [b]) idle where
  requests := h.requests
  replies := by
    rw [h.replies]
    simp only [reply, List.append_nil]

/-- With nothing under way the books are the same. -/
theorem settled (h : Agrees sent handled got idle) :
    sent = handled.map Prod.fst ∧ got = handled.map Prod.snd := by
  refine ⟨?_, ?_⟩
  · rw [h.requests]
    simp only [request, List.append_nil]
  · rw [h.replies]
    simp only [reply, List.append_nil]

/-- What was handled is an initial part of what was sent, without at most one request. -/
theorem handled_initial {e : Exchange α β} (h : Agrees sent handled got e) :
    ∃ rest, sent = handled.map Prod.fst ++ rest ∧ rest.length ≤ 1 := by
  refine ⟨e.request, h.requests, ?_⟩
  cases e <;> simp [request]

/-- What was received is an initial part of the answers, without at most one. -/
theorem got_initial {e : Exchange α β} (h : Agrees sent handled got e) :
    ∃ rest, handled.map Prod.snd = got ++ rest ∧ rest.length ≤ 1 := by
  refine ⟨e.reply, h.replies, ?_⟩
  cases e <;> simp [reply]

end Agrees
end Exchange
end CoreCDTL
