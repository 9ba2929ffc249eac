import CoreCDTL.EventBus.Delivery

/-!
# What one `bus_publish` does

The threads take turns; a bus call is the turns of its own thread.

* `turns t`: the turns of the thread `t` in a run. `account`: what they do, that is the subscriptions
  searched, the changes of the queue, the buffers allocated and freed, the messages, the values
  returned.
* `Course`: the turns of a call from its position on. `course_of_run`: the turns of a thread that
  starts no other call are a course, whatever the other threads do in between.
* `Ended`: the four ways in which a `bus_publish` with valid arguments returns.
* `truthful_iff`: the return value says what happened exactly when the call does not meet the
  shutdown flag in `enqueue_task`, whose result it ignores, and, with the gateway connected, neither
  finds no subscription (it sends `[publish]` then, and returns an error) nor queues a task (it sends
  nothing).
* `fans_out_iff`: the call queues a task for every matching subscription exactly when one matches.
  The loop returns at the first match.
-/

set_option linter.unusedSectionVars false

namespace CoreCDTL
namespace EventBus

variable {κ : Type} [DecidableEq κ]

/-! ## Turns -/

/-- The thread that is in a bus call in this step. -/
def Label.caller : Label κ → Option (Caller κ)
  | call t _ | go t _ => some t
  | _ => none

/-- A step of a thread in a run. -/
structure Turn (κ : Type) where
  before : State κ
  label : Label κ
  after : State κ

/-- The turns of the thread `t` in the run of `ls` from `s`. -/
def turns (t : Caller κ) : List (Label κ) → State κ → List (Turn κ)
  | [], _ => []
  | l :: ls, s =>
    (step l s).elim [] fun s' => (if l.caller = some t then [⟨s, l, s'⟩] else []) ++ turns t ls s'

/-- What a thread does in its turns. -/
structure Account where
  /-- The subscriptions that `bus_publish` goes over. -/
  searched : List Sub := []
  /-- The tasks in the queue before and after each change of it. -/
  queue : List (List Task × List Task) := []
  allocated : List Nat := []
  freed : List Nat := []
  sent : List CStr := []
  results : List Int := []
  deriving DecidableEq, Repr

/-- What the thread `t` does in one turn. -/
def Turn.account (t : Caller κ) (p : Turn κ) : Account where
  searched :=
    match p.before.call t with
    | some (.publishSearch _) => p.before.subs
    | _ => []
  queue :=
    if p.after.queue.contents MAX_TASKS = p.before.queue.contents MAX_TASKS then []
    else [(p.before.queue.contents MAX_TASKS, p.after.queue.contents MAX_TASKS)]
  allocated := List.range' p.before.buffers (p.after.buffers - p.before.buffers)
  freed := p.after.freed.drop p.before.freed.length
  sent := p.after.sent.drop p.before.sent.length
  results := (p.after.results.drop p.before.results.length).map (·.2)

def account (t : Caller κ) (ps : List (Turn κ)) : Account where
  searched := ps.flatMap fun p => (p.account t).searched
  queue := ps.flatMap fun p => (p.account t).queue
  allocated := ps.flatMap fun p => (p.account t).allocated
  freed := ps.flatMap fun p => (p.account t).freed
  sent := ps.flatMap fun p => (p.account t).sent
  results := ps.flatMap fun p => (p.account t).results

/-- The tasks that the thread has put into the queue. -/
def Account.tasks (d : Account) : List Task := d.queue.flatMap fun q => q.2.drop q.1.length

theorem account_cons (t : Caller κ) (p : Turn κ) (ps : List (Turn κ)) :
    account t (p :: ps) =
      { searched := (p.account t).searched ++ (account t ps).searched
        queue := (p.account t).queue ++ (account t ps).queue
        allocated := (p.account t).allocated ++ (account t ps).allocated
        freed := (p.account t).freed ++ (account t ps).freed
        sent := (p.account t).sent ++ (account t ps).sent
        results := (p.account t).results ++ (account t ps).results } :=
  rfl

/-- The thread is not at the search of `bus_publish`. -/
def State.Elsewhere (s : State κ) (t : Caller κ) : Prop := ∀ a, s.call t ≠ some (.publishSearch a)

theorem Turn.searched_eq {t : Caller κ} {p : Turn κ} (h : p.before.Elsewhere t) :
    (p.account t).searched = [] := by
  unfold Turn.account
  split
  · rename_i a hc
    exact absurd hc (h a)
  · rfl

/-- A turn that returns and sends, and has no other effect that the account notes. -/
theorem Turn.account_eq {t : Caller κ} {p : Turn κ} {sent : List CStr}
    {results : List (Caller κ × Int)} (queue : p.after.queue = p.before.queue)
    (buffers : p.after.buffers = p.before.buffers) (freed : p.after.freed = p.before.freed)
    (hs : p.after.sent = p.before.sent ++ sent)
    (hr : p.after.results = p.before.results ++ results) :
    p.account t =
      { searched := (p.account t).searched, sent := sent, results := results.map (·.2) } := by
  unfold Turn.account
  rw [queue, buffers, freed, hs, hr, if_pos rfl, Nat.sub_self, List.drop_length, List.drop_left,
    List.drop_left]
  rfl

/-- Nothing that an account notes has changed. -/
structure Calm (s s' : State κ) : Prop where
  queue : s'.queue = s.queue
  buffers : s'.buffers = s.buffers
  freed : s'.freed = s.freed
  sent : s'.sent = s.sent
  results : s'.results = s.results

theorem account_calm {t : Caller κ} {p : Turn κ} (ps : List (Turn κ)) (h : Calm p.before p.after) :
    account t (p :: ps) =
      { account t ps with searched := (p.account t).searched ++ (account t ps).searched } := by
  have hp : p.account t = { searched := (p.account t).searched } :=
    Turn.account_eq h.queue h.buffers h.freed (h.sent.trans (List.append_nil _).symm)
      (h.results.trans (List.append_nil _).symm)
  rw [account_cons, hp]
  rfl

/-- A turn that moves the thread only. -/
theorem account_moves {t : Caller κ} {p : Turn κ} (ps : List (Turn κ))
    (search : p.before.Elsewhere t) (h : Calm p.before p.after) : account t (p :: ps) = account t ps := by
  rw [account_calm ps h, Turn.searched_eq search]
  rfl

/-- The last turn of a call. -/
theorem account_last {t : Caller κ} {p : Turn κ} {sent : List CStr} {r : Int}
    (search : p.before.Elsewhere t) (queue : p.after.queue = p.before.queue)
    (buffers : p.after.buffers = p.before.buffers) (freed : p.after.freed = p.before.freed)
    (hs : p.after.sent = p.before.sent ++ sent)
    (hr : p.after.results = p.before.results ++ [(t, r)]) :
    account t [p] = { sent := sent, results := [r] } := by
  have hp : p.account t = { searched := (p.account t).searched, sent := sent, results := [r] } :=
    Turn.account_eq queue buffers freed hs hr
  rw [account_cons, hp, Turn.searched_eq search]
  simp only [account, List.flatMap_nil, List.append_nil]

/-! ## Courses -/

/-- The turns of a thread in a bus call, from its position on. Between two of them another thread
can wake it; the turns end where the call returns, crashes or has not come further. -/
inductive Course (t : Caller κ) : Option CallPc → List (Turn κ) → Prop where
  | stop (pos : Option CallPc) : Course t pos []
  | turn {c : CallPc} {o : Outcome} {s s' : State κ} {ps : List (Turn κ)} (at_ : s.call t = some c)
      (ring : s.queue.Inv MAX_TASKS) (step : callStep t o c s = some s')
      (rest : Course t (s'.call t) ps) : Course t (some c) (⟨s, .go t o, s'⟩ :: ps)
  | woken {a : PublishArgs} {k : Task} {ps : List (Turn κ)}
      (rest : Course t (some (.enqueueLock a k)) ps) : Course t (some (.enqueueWait a k)) ps

theorem Course.none {t : Caller κ} {ps : List (Turn κ)} (h : Course t none ps) : ps = [] := by
  cases h
  rfl

/-- What the steps of the other threads do to a thread: nothing, except for a wake-up. A crash takes
it out of the bus. -/
inductive Waits : Option CallPc → Option CallPc → Prop where
  | same (pos : Option CallPc) : Waits pos pos
  | woken (a : PublishArgs) (k : Task) : Waits (some (.enqueueWait a k)) (some (.enqueueLock a k))
  | out (pos : Option CallPc) : Waits pos none

theorem waits_update {f f' : Caller κ → Option CallPc} {t u : Caller κ} {next : Option CallPc}
    (hu : u ≠ t) (call : f' = Function.update f u next) : Waits (f t) (f' t) := by
  rw [call, Function.update_of_ne hu.symm]
  exact .same _

theorem goto_call (s : State κ) (t : Caller κ) (c : CallPc) : (s.goto t c).call t = some c :=
  Function.update_self _ _ _

theorem waits_wakeCaller (s : State κ) (t : Caller κ) (u : Option (Caller κ)) :
    Waits (s.call t) ((s.wakeCaller u).call t) := by
  cases u with
  | none => exact .same _
  | some u =>
    simp only [State.wakeCaller]
    split
    · rename_i a k hc
      by_cases hu : u = t
      · rw [← hu, hc, goto_call]
        exact .woken a k
      · exact waits_update hu rfl
    · exact .same _

theorem waits_recover (s : State κ) (t u : Caller κ) :
    Waits (s.call t) ((s.recover u).call t) := by
  have out : Waits (s.call t) (Function.update s.call u none t) := by
    by_cases hu : u = t
    · rw [hu, Function.update_self]
      exact .out _
    · exact waits_update hu rfl
  unfold State.recover
  split
  · exact out
  · split
    · exact out
    · exact .same _

theorem step_waits {s s' : State κ} {l : Label κ} {t : Caller κ} (hl : l.caller ≠ some t)
    (h : (bus κ).step l s = some s') : Waits (s.call t) (s'.call t) := by
  cases step_moves h with
  | @call u c _ outside up hq =>
    have hu : u ≠ t := fun e => hl (congrArg some e)
    exact waits_update hu hq.call
  | @go u o c _ at_ move =>
    have hu : u ≠ t := fun e => hl (congrArg some e)
    cases move with
    | lockSub hq => exact waits_update hu hq.call
    | inside hq => exact waits_update hu hq.call
    | unlockSub hq => exact waits_update hu hq.call
    | outside hq => exact waits_update hu hq.call
    | @push _ _ i => cases i <;> exact waits_update hu rfl
    | _ => exact waits_update hu rfl
  | @work i o _ move =>
    generalize s.worker i = w at move
    cases move with
    | @pop u rest =>
      exact waits_wakeCaller { s with
        queue := s.queue.pop MAX_TASKS
        taken := s.taken ++ [(i, s.queue.front)]
        notFull := rest } t u
    | _ => exact .same _
  | ret => exact .same _
  | @crashIn u => exact waits_recover s t u
  | @crashOut u => exact waits_recover s t u
  | @wakeCaller u => exact waits_wakeCaller { s with notFull := s.notFull.erase u } t (some u)
  | wakeWorker => exact .same _
  | shutdown => exact .same _
  | main step =>
    rw [(mainStep_frame step).call]
    exact .same _

theorem turns_cons {t : Caller κ} {l : Label κ} (ls : List (Label κ)) {s s' : State κ}
    (h : (bus κ).step l s = some s') :
    turns t (l :: ls) s = (if l.caller = some t then [⟨s, l, s'⟩] else []) ++ turns t ls s' := by
  have hs : step l s = some s' := h
  rw [turns, hs]
  rfl

/-- A turn is a step of the run. -/
theorem turns_label {t : Caller κ} {ls : List (Label κ)} {s : State κ} {p : Turn κ}
    (h : p ∈ turns t ls s) : p.label ∈ ls := by
  induction ls generalizing s with
  | nil => cases h
  | cons l ls ih =>
    rw [turns] at h
    cases hs : step l s with
    | none =>
      rw [hs] at h
      cases h
    | some s' =>
      simp only [hs, Option.elim_some] at h
      rcases List.mem_append.mp h with h | h
      · split at h
        · rw [List.mem_singleton.mp h]
          exact List.mem_cons_self
        · cases h
      · exact List.mem_cons_of_mem l (ih h)

/-- **The turns of a call.** In a run in which the thread starts no other call. -/
theorem course_of_run {t : Caller κ} {ls : List (Label κ)} {s s' : State κ}
    (ring : s.queue.Inv MAX_TASKS) (alone : ∀ c, Label.call t c ∉ ls)
    (h : (bus κ).run ls s = some s') : Course t (s.call t) (turns t ls s) := by
  induction ls generalizing s with
  | nil => exact .stop _
  | cons l ls ih =>
    obtain ⟨u, hu, hr⟩ := Machine.run_cons_some.mp h
    have rest := ih (step_ring_inv ring hu) (fun c hc => alone c (List.mem_cons_of_mem l hc)) hr
    rw [turns_cons ls hu]
    by_cases hl : l.caller = some t
    · rw [if_pos hl]
      cases l with
      | call v c =>
        cases hl
        exact absurd List.mem_cons_self (alone c)
      | go v o =>
        cases hl
        obtain ⟨c, hc, hs⟩ := Option.bind_eq_some_iff.mp hu
        rw [hc]
        exact .turn hc ring hs rest
      | _ => cases hl
    · rw [if_neg hl, List.nil_append]
      generalize turns t ls u = ps at rest ⊢
      have hw := step_waits hl hu
      generalize s.call t = c, u.call t = c' at hw rest ⊢
      cases hw with
      | same => exact rest
      | woken a k => exact .woken rest
      | out =>
        rw [rest.none]
        exact .stop _

/-! ## How a publish ends -/

/-- What the turns of a call need to meet for its result to be true; `told` says that the gateway is
connected. -/
structure Turn.Sound (t : Caller κ) (told : Prop) (p : Turn κ) : Prop where
  found : ∀ a, p.before.call t = some (.publishSearch a) → told →
    search a.pluginId a.event p.before.subs ≠ .notFound
  short : ∀ a it o, p.before.call t = some (.publishCopy a it) → p.label = .go t o → told →
    o.malloc = false
  up : ∀ a k, p.before.call t = some (.enqueueTest a k) → p.before.shutDown = false

/-- The gateway is connected during the turns. -/
def Connected (ps : List (Turn κ)) : Prop := ∀ p ∈ ps, ∀ t o, p.label = .go t o → o.connected = true

/-- A position at which every turn is sound. -/
def CallPc.plain : CallPc → Bool
  | publishSearch _ | publishCopy _ _ | enqueueTest _ _ => false
  | _ => true

section Ends

variable {t : Caller κ} {told : Prop} {ps : List (Turn κ)}

theorem Turn.sound_of_plain {p : Turn κ} {c : CallPc} (at_ : p.before.call t = some c)
    (hc : c.plain = true) : p.Sound t told where
  found := fun a h => by cases at_.symm.trans h; cases hc
  short := fun a it o h => by cases at_.symm.trans h; cases hc
  up := fun a k h => by cases at_.symm.trans h; cases hc

theorem Turn.sound_of_outside {p : Turn κ} (out : p.before.call t = none) : p.Sound t told where
  found := fun a h => by cases out.symm.trans h
  short := fun a it o h => by cases out.symm.trans h
  up := fun a k h => by cases out.symm.trans h

theorem Turn.sound_test {p : Turn κ} {a : PublishArgs} {k : Task}
    (at_ : p.before.call t = some (.enqueueTest a k)) :
    p.Sound t told ↔ p.before.shutDown = false := by
  refine ⟨fun h => h.up a k at_, fun h => ⟨fun a h => ?_, fun a it o h => ?_, fun _ _ _ => h⟩⟩
  · cases at_.symm.trans h
  · cases at_.symm.trans h

theorem elsewhere {s : State κ} {c : CallPc} (at_ : s.call t = some c)
    (hc : ∀ a, c ≠ .publishSearch a) : s.Elsewhere t :=
  fun a h => hc a (Option.some.inj (at_.symm.trans h))

theorem forall_sound_cons {p : Turn κ} (hp : p.Sound t told) :
    (∀ q ∈ p :: ps, q.Sound t told) ↔ ∀ q ∈ ps, q.Sound t told := by
  rw [List.forall_mem_cons]
  exact and_iff_right hp

theorem Connected.tail {p : Turn κ} (h : Connected (p :: ps)) : Connected ps :=
  fun q hq => h q (List.mem_cons_of_mem p hq)

/-- The call has not returned when it makes no more turns. -/
theorem not_returned {P : Prop} (h : (account t ([] : List (Turn κ))).results ≠ []) : P :=
  absurd rfl h

/-- A call that has returned has made its next turn. -/
theorem Course.next {c : CallPc} (h : Course t (some c) ps) (hc : ∀ a k, c ≠ .enqueueWait a k)
    (returned : (account t ps).results ≠ []) :
    ∃ o s s' ps', ps = ⟨s, .go t o, s'⟩ :: ps' ∧ s.call t = some c ∧ s.queue.Inv MAX_TASKS ∧
      callStep t o c s = some s' ∧ Course t (s'.call t) ps' := by
  cases h with
  | stop => exact not_returned returned
  | turn at_ ring step rest => exact ⟨_, _, _, _, rfl, at_, ring, step, rest⟩
  | woken rest => exact absurd rfl (hc _ _)

/-- The next turn moves the thread only. -/
theorem Course.moves {c n : CallPc} (h : Course t (some c) ps) (hw : ∀ a k, c ≠ .enqueueWait a k)
    (hc : c.plain = true) (returned : (account t ps).results ≠ [])
    (move : ∀ o s s', callStep t o c s = some s' → Calm s s' ∧ s'.call t = some n) :
    ∃ p ps', ps = p :: ps' ∧ Course t (some n) ps' ∧ account t (p :: ps') = account t ps' ∧
      p.Sound t told := by
  obtain ⟨o, s, s', ps', rfl, at_, ring, step, rest⟩ := h.next hw returned
  obtain ⟨calm, hn⟩ := move o s s' step
  rw [hn] at rest
  have hs : s.Elsewhere t := elsewhere at_ fun a e => by rw [e] at hc; cases hc
  exact ⟨_, ps', rfl, rest, account_moves ps' hs calm, Turn.sound_of_plain at_ hc⟩

/-- The turn after which a call has returned is its last. -/
theorem Course.last {s : State κ} {r : Int} (rest : Course t ((s.ret t r).call t) ps) :
    ps = [] := by
  have hr : (s.ret t r).call t = Option.none := Function.update_self _ _ _
  rw [hr] at rest
  exact rest.none

/-- From the unlock of `sub_mutex` on. -/
theorem Course.unlock {r : Int} (h : Course t (some (.publishUnlock r)) ps)
    (returned : (account t ps).results ≠ []) :
    account t ps = { results := [r] } ∧ ∀ p ∈ ps, p.Sound t told := by
  obtain ⟨o, s, s', ps', rfl, at_, ring, step, rest⟩ := h.next (fun _ _ e => by cases e) returned
  cases step
  rw [Course.last rest]
  refine ⟨account_last (elsewhere at_ fun _ h => by cases h) rfl rfl rfl
    (List.append_nil _).symm rfl, fun p hp => ?_⟩
  rw [List.mem_singleton.mp hp]
  exact Turn.sound_of_plain at_ rfl

/-- From the end of the search on, when it has found nothing. -/
theorem Course.miss {a : PublishArgs} (h : Course t (some (.publishMiss a)) ps)
    (returned : (account t ps).results ≠ []) :
    (∃ sent, account t ps = { sent := sent, results := [4] } ∧ (Connected ps →
      ∃ e, strArg a.event = some e ∧ sent = [busMsg "publish".toList a.pluginId e])) ∧
    ∀ p ∈ ps, p.Sound t told := by
  obtain ⟨p, ps', rfl, rest, hd, sound⟩ := @Course.moves κ _ t told ps _ (.publishMsg a) h
    (fun _ _ e => by cases e) rfl returned fun o s s' step => by
      cases step
      exact ⟨⟨rfl, rfl, rfl, rfl, rfl⟩, goto_call _ _ _⟩
  rw [hd] at returned ⊢
  rw [forall_sound_cons sound]
  obtain ⟨o, s, s', ps₁, rfl, at_, ring, step, rest⟩ := rest.next (fun _ _ e => by cases e) returned
  have hs : s.Elsewhere t := elsewhere at_ fun _ h => by cases h
  have plain : ∀ q ∈ [(⟨s, .go t o, s'⟩ : Turn κ)], q.Sound t told := fun q hq => by
    rw [List.mem_singleton.mp hq]
    exact Turn.sound_of_plain at_ rfl
  simp only [callStep] at step
  split at step
  · obtain ⟨e, he, rfl⟩ := Option.map_eq_some_iff.mp step
    rw [Course.last rest]
    exact ⟨⟨_, account_last hs rfl rfl rfl rfl rfl, fun _ => ⟨e, he, rfl⟩⟩, plain⟩
  · rename_i off
    cases step
    rw [Course.last rest]
    refine ⟨⟨[], account_last hs rfl rfl rfl (List.append_nil _).symm rfl, fun on => ?_⟩, plain⟩
    exact absurd (on.tail _ List.mem_cons_self t o rfl) off

/-- From the unlock of the queue's mutex on. -/
theorem Course.enqueued (h : Course t (some .enqueueUnlock) ps)
    (returned : (account t ps).results ≠ []) :
    account t ps = { results := [0] } ∧ ∀ p ∈ ps, p.Sound t told := by
  obtain ⟨p, ps', rfl, rest, hd, sound⟩ := @Course.moves κ _ t told ps _ (.publishUnlock 0) h
    (fun _ _ e => by cases e) rfl returned fun o s s' step => by
      cases step
      exact ⟨⟨rfl, rfl, rfl, rfl, rfl⟩, goto_call _ _ _⟩
  rw [hd] at returned ⊢
  rw [forall_sound_cons sound]
  exact rest.unlock returned

/-- The turn in which a task enters the queue. -/
theorem account_push {s : State κ} {o : Outcome} {a : PublishArgs} {k : Task} {i : Option Worker}
    {rest : List Worker} (at_ : s.call t = some (.enqueueTest a k)) (ring : s.queue.Inv MAX_TASKS)
    (room : s.queue.count ≠ MAX_TASKS) :
    (Turn.mk s (.go t o) (({ s with
        queue := s.queue.push MAX_TASKS k
        entered := s.entered ++ [(a, k)]
        notEmpty := rest }.wakeWorker i).goto t .enqueueUnlock)).account t =
      { queue := [(s.queue.contents MAX_TASKS, s.queue.contents MAX_TASKS ++ [k])] } := by
  have push := Ring.contents_push ring (Nat.lt_of_le_of_ne ring.count room) k
  have hs := @Turn.searched_eq κ _ t ⟨s, .go t o, s⟩ (elsewhere at_ fun _ h => by cases h)
  unfold Turn.account at hs ⊢
  simp only at hs
  cases i <;>
    simp only [State.goto, State.wakeWorker, hs, push, List.append_right_eq_self, Nat.sub_self,
      List.drop_length, reduceCtorEq, if_false] <;> rfl

/-- How `enqueue_task` ends: the task is refused after shutdown, which `bus_publish` does not see, or
it enters the queue. -/
inductive Offered (t : Caller κ) (told : Prop) (k : Task) (ps : List (Turn κ)) : Prop where
  | refused (account : account t ps = { results := [0] }) (unsound : ¬ ∀ p ∈ ps, p.Sound t told)
      (down : ∃ p ∈ ps, p.before.shutDown = true)
  | queued (q : List Task) (account : account t ps = { queue := [(q, q ++ [k])], results := [0] })
      (sound : ∀ p ∈ ps, p.Sound t told)

theorem Offered.cons {p : Turn κ} {k : Task} (h : Offered t told k ps)
    (moves : account t (p :: ps) = account t ps) (hp : p.Sound t told) :
    Offered t told k (p :: ps) := by
  cases h with
  | refused account unsound down =>
    obtain ⟨q, hq, down⟩ := down
    exact .refused (moves.trans account) (fun h => unsound ((forall_sound_cons hp).mp h))
      ⟨q, List.mem_cons_of_mem p hq, down⟩
  | queued q account sound =>
    exact .queued q (moves.trans account) ((forall_sound_cons hp).mpr sound)

/-- In `enqueue_task`. -/
theorem Course.enqueue {c : CallPc} {a : PublishArgs} {k : Task} (h : Course t (some c) ps)
    (hc : c.pending = some (a, k)) (returned : (account t ps).results ≠ []) :
    Offered t told k ps := by
  -- the call can wait and be woken any number of times
  generalize hpos : some c = pos at h
  induction h generalizing c with
  | stop => exact not_returned returned
  | @turn c o s s' ps' at_ ring step rest ih =>
    cases hpos
    have hs : s.Elsewhere t := elsewhere at_ fun _ e => by rw [e] at hc; cases hc
    -- a turn that leaves the call in `enqueue_task`, with the task
    have stays : ∀ n : CallPc, n.pending = some (a, k) → s'.call t = some n → Calm s s' →
        (⟨s, .go t o, s'⟩ : Turn κ).Sound t told →
        Offered t told k (⟨s, .go t o, s'⟩ :: ps') := by
      intro n hn hcall calm hp
      have moves := @account_moves κ _ t ⟨s, .go t o, s'⟩ ps' hs calm
      rw [moves] at returned
      exact (ih hn returned hcall.symm).cons moves hp
    cases c with
    | enqueueLock a' k' =>
      cases hc
      obtain ⟨m, -, rfl⟩ := Option.map_eq_some_iff.mp step
      exact stays _ rfl (goto_call _ _ _) ⟨rfl, rfl, rfl, rfl, rfl⟩ (Turn.sound_of_plain at_ rfl)
    | enqueueTest a' k' =>
      cases hc
      have sound := @Turn.sound_test κ _ t told ⟨s, .go t o, s'⟩ a k at_
      simp only [callStep] at step
      split at step
      · rename_i full
        cases step
        exact stays _ rfl (goto_call _ _ _) ⟨rfl, rfl, rfl, rfl, rfl⟩ (sound.mpr full.2)
      rename_i full
      by_cases down : s.shutDown = true
      · rw [if_pos down] at step
        cases step
        rw [goto_call] at rest
        have moves := @account_moves κ _ t ⟨s, .go t o, s.goto t .enqueueUnlock⟩ ps' hs
          ⟨rfl, rfl, rfl, rfl, rfl⟩
        rw [moves] at returned
        have hd := (@Course.enqueued κ _ t told ps' rest returned).1
        refine .refused (moves.trans hd) (fun h => ?_) ⟨_, List.mem_cons_self, down⟩
        have up := sound.mp (h _ List.mem_cons_self)
        rw [down] at up
        cases up
      · rw [if_neg down] at step
        have up : s.shutDown = false := Bool.eq_false_iff.mpr down
        obtain ⟨⟨i, waiting⟩, -, rfl⟩ := Option.map_eq_some_iff.mp step
        rw [goto_call] at rest
        have hpush := @account_push κ _ t s o a k i waiting at_ ring fun hfull => full ⟨hfull, up⟩
        rw [account_cons, hpush] at returned
        obtain ⟨hd, hsound⟩ := @Course.enqueued κ _ t told ps' rest returned
        refine .queued (s.queue.contents MAX_TASKS) ?_
          ((forall_sound_cons (sound.mpr up)).mpr hsound)
        rw [account_cons, hpush, hd]
        rfl
    | enqueueWait => cases step
    | _ => cases hc
  | woken rest ih =>
    cases hpos
    cases hc
    exact ih rfl returned rfl

/-- How `bus_publish` ends for the subscription that it has found. -/
inductive Taken (t : Caller κ) (told : Prop) (a : PublishArgs) (it : Sub) (ps : List (Turn κ)) :
    Prop where
  | short (account : account t ps = { results := [5] }) (sound : ∀ p ∈ ps, p.Sound t told)
  | refused (n : Nat) (account : account t ps = { allocated := [n], results := [0] })
      (unsound : ¬ ∀ p ∈ ps, p.Sound t told) (down : ∃ p ∈ ps, p.before.shutDown = true)
  | queued (q : List Task) (b : Buffer)
      (account : account t ps =
        { queue := [(q, q ++ [⟨some b, a.len, some it⟩])], allocated := [b.id], results := [0] })
      (copied : readable a.data a.len = some b.bytes)
      (sound : (∀ p ∈ ps, p.Sound t told) ↔ ¬told)

/-- The turn in which the data is copied. -/
theorem account_copy {s : State κ} {o : Outcome} {n : CallPc} (hs : s.Elsewhere t) :
    (Turn.mk s (.go t o) ({ s with buffers := s.buffers + 1 }.goto t n)).account t =
      { allocated := [s.buffers] } := by
  have h := @Turn.searched_eq κ _ t ⟨s, .go t o, s⟩ hs
  unfold Turn.account at h ⊢
  simp only at h
  simp only [State.goto, h, if_true, Nat.add_sub_cancel_left, List.drop_length]
  rfl

/-- From the match on. -/
theorem Course.copy {a : PublishArgs} {it : Sub} (h : Course t (some (.publishCopy a it)) ps)
    (returned : (account t ps).results ≠ []) : Taken t told a it ps := by
  obtain ⟨o, s, s', ps', rfl, at_, ring, step, rest⟩ := h.next (fun _ _ e => by cases e) returned
  have hs : s.Elsewhere t := elsewhere at_ fun _ h => by cases h
  have sound : (⟨s, .go t o, s'⟩ : Turn κ).Sound t told ↔ (told → o.malloc = false) := by
    refine ⟨fun h => h.short a it o at_ rfl, fun h =>
      ⟨fun _ e => absurd e (hs _), ?_, fun _ _ e => ?_⟩⟩
    · rintro _ _ _ - e
      cases e
      exact h
    · cases at_.symm.trans e
  simp only [callStep] at step
  split at step
  · rename_i fails
    cases step
    rw [goto_call] at rest
    have moves := @account_moves κ _ t ⟨s, .go t o, s.goto t (.publishUnlock 5)⟩ ps' hs
      ⟨rfl, rfl, rfl, rfl, rfl⟩
    rw [moves] at returned
    obtain ⟨hd, hsound⟩ := @Course.unlock κ _ t told ps' _ rest returned
    exact .short (moves.trans hd) ((forall_sound_cons (sound.mpr fun _ => fails)).mpr hsound)
  · rename_i fails
    obtain ⟨bytes, copied, rfl⟩ := Option.map_eq_some_iff.mp step
    have copy := @account_copy κ _ t s o
      (.enqueueLock a ⟨some ⟨s.buffers, bytes⟩, a.len, some it⟩) hs
    rw [goto_call] at rest
    rw [account_cons, copy] at returned
    -- with the gateway connected this turn is sound on a failed `malloc` only
    have onlyFailed : told → ¬ ∀ p ∈ (⟨s, .go t o, _⟩ : Turn κ) :: ps', p.Sound t told :=
      fun on h => fails ((sound.mp (h _ List.mem_cons_self)) on)
    cases @Course.enqueue κ _ t told ps' _ a _ rest rfl returned with
    | refused account unsound down =>
      obtain ⟨p, hp, down⟩ := down
      refine .refused s.buffers ?_ (fun h => unsound fun p hp => h p (List.mem_cons_of_mem _ hp))
        ⟨p, List.mem_cons_of_mem _ hp, down⟩
      rw [account_cons, copy, account]
      rfl
    | queued q account hsound =>
      refine .queued q ⟨s.buffers, bytes⟩ ?_ copied ⟨fun h on => onlyFailed on h, fun off => ?_⟩
      · rw [account_cons, copy, account]
        rfl
      · exact (forall_sound_cons (sound.mpr fun on => absurd on off)).mpr hsound

/-- How a `bus_publish` with valid arguments ends. -/
inductive Ended (t : Caller κ) (told : Prop) (a : PublishArgs) (ps : List (Turn κ)) : Prop where
  | missed (subs : List Sub) (sent : List CStr)
      (account : account t ps = { searched := subs, sent := sent, results := [4] })
      (message : Connected ps →
        ∃ e, strArg a.event = some e ∧ sent = [busMsg "publish".toList a.pluginId e])
      (sound : (∀ p ∈ ps, p.Sound t told) ↔ ¬told)
  | taken (subs : List Sub) (it : Sub) (rest : List (Turn κ)) (sub : ∀ p ∈ rest, p ∈ ps)
      (account : account t ps = { account t rest with searched := subs })
      (found : search a.pluginId a.event subs = .found it) (taken : Taken t told a it rest)
      (sound : (∀ p ∈ ps, p.Sound t told) ↔ ∀ p ∈ rest, p.Sound t told)

/-- From the search on. -/
theorem Course.search {a : PublishArgs} (h : Course t (some (.publishSearch a)) ps)
    (returned : (account t ps).results ≠ []) : Ended t told a ps := by
  obtain ⟨o, s, s', ps', rfl, at_, ring, step, rest⟩ := h.next (fun _ _ e => by cases e) returned
  have sound : (⟨s, .go t o, s'⟩ : Turn κ).Sound t told ↔
      (told → EventBus.search a.pluginId a.event s.subs ≠ .notFound) := by
    refine ⟨fun h => h.found a at_, fun h => ⟨?_, fun _ _ _ e => ?_, fun _ _ e => ?_⟩⟩
    · intro _ e
      cases at_.symm.trans e
      exact h
    · cases at_.symm.trans e
    · cases at_.symm.trans e
  have searched : ((⟨s, .go t o, s'⟩ : Turn κ).account t).searched = s.subs := by
    simp only [Turn.account, at_]
  simp only [callStep] at step
  cases hs : EventBus.search a.pluginId a.event s.subs with
  | fault => rw [hs] at step; cases step
  | notFound =>
    rw [hs] at step
    cases step
    have moves := @account_calm κ _ t ⟨s, .go t o, s.goto t (.publishMiss a)⟩ ps'
      ⟨rfl, rfl, rfl, rfl, rfl⟩
    rw [goto_call] at rest
    rw [moves] at returned
    obtain ⟨⟨sent, hd, message⟩, hsound⟩ := @Course.miss κ _ t told ps' a rest returned
    refine .missed s.subs sent ?_ (fun on => message on.tail) ⟨fun h on => ?_, fun off => ?_⟩
    · rw [moves, hd, searched, List.append_nil]
    · exact sound.mp (h _ List.mem_cons_self) on hs
    · exact (forall_sound_cons (sound.mpr fun on => absurd on off)).mpr hsound
  | found it =>
    rw [hs] at step
    cases step
    have moves := @account_calm κ _ t ⟨s, .go t o, s.goto t (.publishCopy a it)⟩ ps'
      ⟨rfl, rfl, rfl, rfl, rfl⟩
    rw [goto_call] at rest
    rw [moves] at returned
    have taken := @Course.copy κ _ t told ps' a it rest returned
    have none : (account t ps').searched = [] := by
      cases taken with
      | short account sound => rw [account]
      | refused n account unsound down => rw [account]
      | queued q b account copied sound => rw [account]
    refine .taken s.subs it ps' (fun p => List.mem_cons_of_mem _) ?_ hs taken
      (forall_sound_cons (sound.mpr fun _ => ?_))
    · rw [moves, searched, none, List.append_nil]
    · rw [hs]
      exact fun e => by cases e

theorem Ended.cons {p : Turn κ} {a : PublishArgs} (h : Ended t told a ps)
    (moves : account t (p :: ps) = account t ps) (hp : p.Sound t told) :
    Ended t told a (p :: ps) := by
  have sound := @forall_sound_cons κ _ t told ps p hp
  cases h with
  | missed subs sent account message hsound =>
    exact .missed subs sent (moves.trans account) (fun on => message on.tail) (sound.trans hsound)
  | taken subs it rest sub account found taken hsound =>
    exact .taken subs it rest (fun q hq => List.mem_cons_of_mem p (sub q hq)) (moves.trans account)
      found taken (sound.trans hsound)

/-- From the first lock on. -/
theorem Course.lock {a : PublishArgs} (h : Course t (some (.publishLock a)) ps)
    (returned : (account t ps).results ≠ []) : Ended t told a ps := by
  obtain ⟨p, ps', rfl, rest, moves, sound⟩ := @Course.moves κ _ t told ps _ (.publishSearch a) h
    (fun _ _ e => by cases e) rfl returned fun o s s' step => by
      obtain ⟨m, -, rfl⟩ := Option.map_eq_some_iff.mp step
      exact ⟨⟨rfl, rfl, rfl, rfl, rfl⟩, goto_call _ _ _⟩
  rw [moves] at returned
  exact (rest.search returned).cons moves sound

end Ends

/-- The start of a `bus_publish`. -/
theorem beginCall_publish (t : Caller κ) (a : PublishArgs) (s : State κ) :
    (∃ r, r ≠ 0 ∧ beginCall t (.publish a) s = s.ret t r) ∨
      beginCall t (.publish a) s = s.goto t (.publishLock a) := by
  simp only [beginCall]
  split_ifs
  · exact .inl ⟨1, by decide, rfl⟩
  · exact .inl ⟨2, by decide, rfl⟩
  · exact .inl ⟨3, by decide, rfl⟩
  · exact .inr rfl

/-- **The course of a `bus_publish`.** It returns an error at once, or it ends in one of the four
ways. -/
theorem publish_ended {s s' : State κ} {t : Caller κ} {a : PublishArgs} {ls : List (Label κ)}
    {ps : List (Turn κ)} (told : Prop) (ring : s.queue.Inv MAX_TASKS)
    (alone : ∀ c, Label.call t c ∉ ls) (h : (bus κ).run (.call t (.publish a) :: ls) s = some s')
    (hps : turns t (.call t (.publish a) :: ls) s = ps) (returned : (account t ps).results ≠ []) :
    (∃ r, r ≠ 0 ∧ account t ps = { results := [r] } ∧ ∀ p ∈ ps, p.Sound t told) ∨
      Ended t told a ps := by
  obtain ⟨u, hu, hr⟩ := Machine.run_cons_some.mp h
  have course := course_of_run (step_ring_inv ring hu) alone hr
  rw [turns_cons ls hu] at hps
  subst hps
  simp only [bus, step] at hu
  split at hu
  · rename_i start
    cases hu
    have out : s.call t = none := isOutside_call start.1
    have away : s.Elsewhere t := fun _ e => by rw [out] at e; cases e
    simp only [Label.caller, if_true] at returned ⊢
    rcases beginCall_publish t a s with ⟨r, hr, he⟩ | he
    · rw [he] at course returned ⊢
      rw [Course.last course]
      refine .inl ⟨r, hr, account_last away rfl rfl rfl (List.append_nil _).symm rfl,
        fun p hp => ?_⟩
      rw [List.append_nil] at hp
      rw [List.mem_singleton.mp hp]
      exact Turn.sound_of_outside out
    · rw [he] at course returned ⊢
      rw [goto_call] at course
      have moves := @account_moves κ _ t ⟨s, .call t (.publish a), s.goto t (.publishLock a)⟩
        (turns t ls (s.goto t (.publishLock a))) away ⟨rfl, rfl, rfl, rfl, rfl⟩
      rw [List.singleton_append] at returned ⊢
      rw [moves] at returned
      exact .inr ((course.lock returned).cons moves (Turn.sound_of_outside out))
  · cases hu

/-! ## The return value -/

/-- The return value tells whether the call has queued a task; a failed call leaves the queue and
frees the copy; with the gateway connected the message is sent exactly on success. -/
structure Truthful (a : PublishArgs) (told : Prop) (d : Account) (r : Int) : Prop where
  queued : r = 0 ↔ ∃ q k, d.queue = [(q, q ++ [k])]
  failed : r ≠ 0 → d.queue = [] ∧ ∀ n ∈ d.allocated, n ∈ d.freed
  message : told → ((∃ e, strArg a.event = some e ∧
    busMsg "publish".toList a.pluginId e ∈ d.sent) ↔ r = 0)

/-- A failed call that has left the queue and the heap and, with the gateway connected, has sent
nothing. -/
theorem truthful_of_failed {a : PublishArgs} {told : Prop} {d : Account} {r : Int} (hr : r ≠ 0)
    (hq : d.queue = []) (ha : d.allocated = []) (hs : told → d.sent = []) :
    Truthful a told d r where
  queued := by
    rw [hq]
    refine iff_of_false hr ?_
    rintro ⟨q, k, e⟩
    cases e
  failed := fun _ => ⟨hq, fun n hn => absurd (ha ▸ hn) List.not_mem_nil⟩
  message := fun on => by
    rw [hs on]
    refine iff_of_false ?_ hr
    rintro ⟨e, -, he⟩
    exact List.not_mem_nil he

/-- **When `bus_publish` tells the truth.** For every queue, list of subscriptions and flag at its
start, and whatever the other threads do until it returns. Every step keeps the ring well formed
(`step_ring_inv`). -/
theorem truthful_iff {s s' : State κ} {t : Caller κ} {a : PublishArgs} {ls : List (Label κ)}
    {ps : List (Turn κ)} {r : Int} (ring : s.queue.Inv MAX_TASKS)
    (alone : ∀ c, Label.call t c ∉ ls) (h : (bus κ).run (.call t (.publish a) :: ls) s = some s')
    (hps : turns t (.call t (.publish a) :: ls) s = ps) (returned : (account t ps).results = [r]) :
    Truthful a (Connected ps) (account t ps) r ↔ ∀ p ∈ ps, p.Sound t (Connected ps) := by
  have some_result : (account t ps).results ≠ [] := by
    rw [returned]
    exact List.cons_ne_nil r []
  rcases publish_ended (Connected ps) ring alone h hps some_result with ⟨r', hr, hd, sound⟩ | ended
  · rw [hd] at returned ⊢
    cases returned
    exact iff_of_true (truthful_of_failed hr rfl rfl fun _ => rfl) sound
  cases ended with
  | missed subs sent hd message sound =>
    rw [hd] at returned ⊢
    cases returned
    rw [sound]
    constructor
    · intro truth on
      obtain ⟨e, he, hsent⟩ := message on
      have := (truth.message on).mp ⟨e, he, by rw [hsent]; exact List.mem_singleton_self _⟩
      cases this
    · exact fun off => truthful_of_failed (by decide) rfl rfl fun on => absurd on off
  | taken subs it rest sub hd found taken sound =>
    rw [sound]
    cases taken with
    | short account sound =>
      rw [hd, account] at returned ⊢
      cases returned
      exact iff_of_true (truthful_of_failed (by decide) rfl rfl fun _ => rfl) sound
    | refused n account unsound down =>
      rw [hd, account] at returned ⊢
      cases returned
      refine iff_of_false (fun truth => ?_) unsound
      obtain ⟨q, k, e⟩ := truth.queued.mp rfl
      cases e
    | queued q b account copied sound =>
      rw [hd, account] at returned ⊢
      cases returned
      rw [sound]
      constructor
      · intro truth on
        obtain ⟨e, -, he⟩ := (truth.message on).mpr rfl
        exact List.not_mem_nil he
      · intro off
        exact ⟨iff_of_true rfl ⟨q, _, rfl⟩, fun h => absurd rfl h, fun on => absurd on off⟩

/-- The client's call goes on `n` times, with the outcomes `o`. -/
def sends (o : Outcome) (n : Nat) : List (Label Unit) := List.replicate n (.go (.client ()) o)

/-- One byte for the event `e` of plugin 1. -/
def sample : PublishArgs := ⟨1, .obj ['e'], .obj [7], 1⟩

/-- `bus_shutdown` has set the flag and waits for the workers. -/
def closing : List (Label Unit) := [.shutdown, .main, .main, .main]

theorem alone_sends (o : Outcome) (n : Nat) (t : Caller Unit) (c : BusCall) :
    Label.call t c ∉ sends o n := fun h => by
  cases List.eq_of_mem_replicate h

/-- With the gateway not connected and no shutdown, a publish that queues its task is truthful. -/
theorem truthful_iff_sample :
    ∃ s' ps, (bus Unit).run (.call (.client ()) (.publish sample) :: sends .ok 7)
        (init Unit [⟨['e'], 1, 1, 0⟩]) = some s' ∧
      turns (.client ()) (.call (.client ()) (.publish sample) :: sends .ok 7)
        (init Unit [⟨['e'], 1, 1, 0⟩]) = ps ∧ (account (.client ()) ps).results = [0] ∧
      (Truthful sample (Connected ps) (account (.client ()) ps) 0 ↔
        ∀ p ∈ ps, p.Sound (.client ()) (Connected ps)) :=
  ⟨_, _, rfl, rfl, rfl,
    truthful_iff (Ring.inv_empty (by decide) _) (alone_sends .ok 7 _) rfl rfl rfl⟩

/-- A publish during `bus_shutdown` returns 0 without a task in the queue, and keeps the copy. With
the gateway connected, a publish that nobody has subscribed to sends `[publish]` and returns 4. -/
theorem publish_untruthful :
    (∃ s s' ps, (bus Unit).run closing (init Unit [⟨['e'], 1, 1, 0⟩]) = some s ∧
      (bus Unit).run (.call (.client ()) (.publish sample) :: sends .ok 7) s = some s' ∧
      turns (.client ()) (.call (.client ()) (.publish sample) :: sends .ok 7) s = ps ∧
      account (.client ()) ps =
        { searched := [⟨['e'], 1, 1, 0⟩], allocated := [0], results := [0] } ∧
      ¬ Truthful sample (Connected ps) (account (.client ()) ps) 0) ∧
    ∃ s' ps, (bus Unit).run (.call (.client ()) (.publish sample) :: sends ⟨true, true, 0, true⟩ 4)
        (init Unit []) = some s' ∧
      turns (.client ()) (.call (.client ()) (.publish sample) :: sends ⟨true, true, 0, true⟩ 4)
        (init Unit []) = ps ∧
      (account (.client ()) ps).results = [4] ∧
      ¬ Truthful sample (Connected ps) (account (.client ()) ps) 4 := by
  refine ⟨⟨_, _, _, rfl, rfl, rfl, rfl, fun h => ?_⟩, _, _, rfl, rfl, rfl, fun h => ?_⟩
  · obtain ⟨q, k, e⟩ := h.queued.mp rfl
    cases e
  · have on : Connected (turns (.client ()) (.call (.client ()) (.publish sample) ::
        sends ⟨true, true, 0, true⟩ 4) (init Unit [])) := by
      intro p hp t o hl
      have hmem := turns_label hp
      rw [hl] at hmem
      rcases List.mem_cons.mp hmem with e | hmem
      · cases e
      · cases List.eq_of_mem_replicate hmem
        rfl
    have := (h.message on).mp ⟨['e'], rfl, List.mem_singleton_self _⟩
    cases this

/-! ## Fan-out -/

instance (a : PublishArgs) (it : Sub) : Decidable (Matches a it) :=
  inferInstanceAs (Decidable (_ ∧ _))

/-- One task for each subscription that the publish is for, with a copy of the data, and no
other. -/
structure FansOut (a : PublishArgs) (d : Account) : Prop where
  subs : (d.tasks.map (·.subPtr)).Perm ((d.searched.filter (Matches a ·)).map some)
  copied : ∀ k ∈ d.tasks, Published a k

/-- The search finds the first match. -/
theorem search_first {a : PublishArgs} {subs : List Sub} {it : Sub}
    (h : search a.pluginId a.event subs = .found it) :
    ∃ rest, subs.filter (Matches a ·) = it :: rest := by
  induction subs with
  | nil => cases h
  | cons x rest ih =>
    unfold search at h
    by_cases hx : Matches a x
    · rw [if_pos hx.1, hx.2] at h
      simp only [if_true] at h
      cases h
      exact ⟨_, List.filter_cons_of_pos (decide_eq_true hx)⟩
    · rw [List.filter_cons_of_neg (by simpa using hx)]
      refine ih ?_
      split at h
      · rename_i hp
        split at h
        · rename_i e he
          rw [if_neg fun hxe => hx ⟨hp, he.trans (congrArg Ptr.obj hxe.symm)⟩] at h
          exact h
        · cases h
      · exact h

/-- **When `bus_publish` serves every subscriber.** For every list of subscriptions. -/
theorem fans_out_iff {s s' : State κ} {t : Caller κ} {a : PublishArgs} {ls : List (Label κ)}
    {ps : List (Turn κ)} (ring : s.queue.Inv MAX_TASKS) (alone : ∀ c, Label.call t c ∉ ls)
    (h : (bus κ).run (.call t (.publish a) :: ls) s = some s')
    (hps : turns t (.call t (.publish a) :: ls) s = ps) (returned : (account t ps).results = [0])
    (up : ∀ p ∈ ps, p.before.shutDown = false) :
    FansOut a (account t ps) ↔ ((account t ps).searched.filter (Matches a ·)).length = 1 := by
  have some_result : (account t ps).results ≠ [] := by
    rw [returned]
    exact List.cons_ne_nil 0 []
  rcases publish_ended True ring alone h hps some_result with ⟨r, hr, hd, -⟩ | ended
  · rw [hd] at returned
    cases returned
    exact absurd rfl hr
  cases ended with
  | missed subs sent hd => rw [hd] at returned; cases returned
  | taken subs it rest sub hd found taken =>
    cases taken with
    | short account => rw [hd, account] at returned; cases returned
    | refused n account unsound down =>
      obtain ⟨p, hp, down⟩ := down
      rw [up p (sub p hp)] at down
      cases down
    | queued q b account copied =>
      obtain ⟨others, first⟩ := search_first found
      have tasks : (EventBus.account t ps).tasks = [⟨some b, a.len, some it⟩] := by
        rw [hd, account]
        simp only [Account.tasks, List.flatMap_cons, List.flatMap_nil, List.drop_left,
          List.append_nil]
      have published : Published a ⟨some b, a.len, some it⟩ :=
        ⟨it, b, rfl, (search_found found).2, copied⟩
      have searched : (EventBus.account t ps).searched = subs := by rw [hd]
      rw [searched, first]
      constructor
      · intro fan
        have perm := fan.subs
        rw [tasks, searched, first] at perm
        simpa using perm.length_eq
      · intro one
        have none : others = [] := List.eq_nil_of_length_eq_zero (Nat.succ.inj one)
        refine ⟨?_, fun k hk => ?_⟩
        · rw [tasks, searched, first, none]
          exact List.Perm.refl _
        · rw [tasks] at hk
          rw [List.mem_singleton.mp hk]
          exact published

/-- Two callbacks of one plugin for one event. -/
def twice : List Sub := [⟨['e'], 1, 2, 0⟩, ⟨['e'], 1, 1, 0⟩]

theorem fans_out_iff_sample :
    ∃ s' ps, (bus Unit).run (.call (.client ()) (.publish sample) :: sends .ok 7)
        (init Unit [⟨['e'], 1, 1, 0⟩]) = some s' ∧
      turns (.client ()) (.call (.client ()) (.publish sample) :: sends .ok 7)
        (init Unit [⟨['e'], 1, 1, 0⟩]) = ps ∧ (account (.client ()) ps).results = [0] ∧
      (FansOut sample (account (.client ()) ps) ↔
        ((account (.client ()) ps).searched.filter (Matches sample ·)).length = 1) :=
  ⟨_, _, rfl, rfl, rfl,
    fans_out_iff (Ring.inv_empty (by decide) _) (alone_sends .ok 7 _) rfl rfl rfl (by decide)⟩

/-- Only the later one gets the data. -/
theorem publish_shadows :
    ∃ s' ps, (bus Unit).run (.call (.client ()) (.publish sample) :: sends .ok 7)
        (init Unit twice) = some s' ∧
      turns (.client ()) (.call (.client ()) (.publish sample) :: sends .ok 7)
        (init Unit twice) = ps ∧
      (account (.client ()) ps).results = [0] ∧ (∀ p ∈ ps, p.before.shutDown = false) ∧
      ¬ FansOut sample (account (.client ()) ps) := by
  refine ⟨_, _, rfl, rfl, rfl, by decide, fun h => ?_⟩
  have length := h.subs.length_eq
  revert length
  decide

end EventBus
end CoreCDTL
