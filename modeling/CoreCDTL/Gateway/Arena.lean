import CoreCDTL.Gateway.Dispatcher
import Mathlib.Logic.Function.Basic

/-!
# The memory of the arena

`gateway_d_msg_add` looks at `arena_d_instance` before it takes the mutex, and
`gateway_dispatcher_close` frees the arena and clears the pointer without the mutex. Here every
access to the globals is a step of its own, and the dispatcher is opened and closed any number of
times while any number of threads send.

* `State.fault`: a thread went through the pointer when it was NULL, freed or past the end, or
  called the callback when it was NULL.
* `Quiet`: the arena is freed when no sender is between its test and its last write, none makes its
  test between the `free` and the clearing of the pointer, and the dispatcher is opened when its
  threads have ended.
* `Locks`: the critical sections are exclusive, in every run. `Inv`: what holds in quiet runs.
* `close_safe_iff`: a quiet run has no fault, and a step that is not quiet can be followed by one.
-/

set_option linter.unusedSectionVars false

namespace CoreCDTL
namespace Arena

open Dispatcher (MSG_SIZE MAX_TOTAL_SIZE)

/-! ## The code -/

/-- Where a thread is in `gateway_d_msg_add`: before it, at the lock, at the test for room, at
`memcpy`, at the write of the newline, at the unlock. -/
inductive SendPc where
  | outside
  | tested (len : Nat)
  | locked (len : Nat)
  | copying (len : Nat)
  | ending
  | unlocking
  deriving DecidableEq, Repr

/-- Where a thread is in `dispatcher_loop`, and in `gateway_d_flush` from there. -/
inductive LoopPc where
  | absent
  | test
  | sleep
  | check
  | looked (hasData : Bool)
  | flush
  | flushLock
  | flushCopy
  | flushCall
  | flushReset
  | flushUnlock
  | exited
  deriving DecidableEq, Repr

/-- Where the thread of the gateway is: in neither function, in `gateway_dispatcher_init` at the
write of `current_offset` or behind it, in `gateway_dispatcher_close` at `pthread_join` or behind
it. -/
inductive MainPc where
  | idle
  | initOffset
  | initCb
  | initRun
  | initThread
  | closeJoin
  | closeFree
  | closeNull
  | closeOffset
  | closeCb
  deriving DecidableEq, Repr

inductive Owner (P : Type) where
  | sender (p : P)
  | loop (i : Nat)
  deriving DecidableEq, Repr

/-- The globals of `gateway_dispatcher.c` and the positions of the threads; `arena` is the number of
the allocation. `dispatcherThread` is the thread to join, `none` when it is joined. `allocs`,
`freed` and `fault` are history. -/
structure State (P : Type) where
  arena : Option Nat
  currentOffset : Nat
  onDataCb : Bool
  dispatcherRunning : Bool
  dispatcherThread : Option Nat
  mutex : Option (Owner P)
  loop : Nat → LoopPc
  threads : Nat
  main : MainPc
  sender : P → SendPc
  allocs : Nat
  freed : List Nat
  fault : Bool

def init (P : Type) : State P where
  arena := none
  currentOffset := 0
  onDataCb := false
  dispatcherRunning := false
  dispatcherThread := none
  mutex := none
  loop := fun _ => .absent
  threads := 0
  main := .idle
  sender := fun _ => .outside
  allocs := 0
  freed := []
  fault := false

section

variable {P : Type} [DecidableEq P]

/-- The bytes up to `n` of the arena can be accessed. -/
def State.Valid (s : State P) (n : Nat) : Prop :=
  ∃ a ∈ s.arena, a ∉ s.freed ∧ n ≤ MAX_TOTAL_SIZE

instance (s : State P) (n : Nat) : Decidable (s.Valid n) :=
  match h : s.arena with
  | none => isFalse fun ⟨a, ha, _⟩ => by simp [h] at ha
  | some a => decidable_of_iff (a ∉ s.freed ∧ n ≤ MAX_TOTAL_SIZE)
    ⟨fun h' => ⟨a, h, h'⟩, fun ⟨b, hb, h'⟩ => by
      rw [h, Option.mem_some_iff] at hb
      exact hb ▸ h'⟩

def State.goto (s : State P) (p : P) (pc : SendPc) : State P :=
  { s with sender := Function.update s.sender p pc }

def State.gotoLoop (s : State P) (i : Nat) (pc : LoopPc) : State P :=
  { s with loop := Function.update s.loop i pc }

/-- The call of `gateway_d_msg_add`, with its test. -/
def send (p : P) (len : Nat) (s : State P) : Option (State P) :=
  if s.sender p = .outside ∧ 0 < len ∧ len < MSG_SIZE then
    some (if s.arena = none then s else s.goto p (.tested len))
  else none

/-- `gateway_d_msg_add` behind its test. -/
def go (p : P) (s : State P) : Option (State P) :=
  match s.sender p with
  | .outside => none
  | .tested len =>
    if s.mutex = none then some ({ s with mutex := some (.sender p) }.goto p (.locked len)) else none
  | .locked len =>
    some (if s.currentOffset + len + 1 ≥ MAX_TOTAL_SIZE then s.goto p .unlocking
      else s.goto p (.copying len))
  | .copying len =>
    some (if s.Valid (s.currentOffset + len) then
      { s with currentOffset := s.currentOffset + len }.goto p .ending
      else { s with fault := true })
  | .ending =>
    some (if s.Valid (s.currentOffset + 1) then
      { s with currentOffset := s.currentOffset + 1 }.goto p .unlocking
      else { s with fault := true })
  | .unlocking => some ({ s with mutex := none }.goto p .outside)

/-- `dispatcher_loop`; the look at `current_offset` in its critical section is one step. -/
def loopStep (i : Nat) (s : State P) : Option (State P) :=
  match s.loop i with
  | .absent | .exited => none
  | .test => some (s.gotoLoop i (if s.dispatcherRunning then .sleep else .exited))
  | .sleep => some (s.gotoLoop i .check)
  | .check =>
    if s.mutex = none then some (s.gotoLoop i (.looked (0 < s.currentOffset))) else none
  | .looked hasData => some (s.gotoLoop i (if hasData then .flush else .test))
  | .flush => some (s.gotoLoop i (if s.arena = none ∨ s.currentOffset = 0 then .test else .flushLock))
  | .flushLock =>
    if s.mutex = none then some ({ s with mutex := some (.loop i) }.gotoLoop i .flushCopy) else none
  | .flushCopy =>
    some (if s.Valid s.currentOffset then s.gotoLoop i .flushCall else { s with fault := true })
  | .flushCall =>
    some (if s.onDataCb then s.gotoLoop i .flushReset else { s with fault := true })
  | .flushReset => some ({ s with currentOffset := 0 }.gotoLoop i .flushUnlock)
  | .flushUnlock => some ({ s with mutex := none }.gotoLoop i .test)

/-- `gateway_dispatcher_init` behind `malloc`, and `gateway_dispatcher_close` from the join on. -/
def mainStep (s : State P) : Option (State P) :=
  match s.main with
  | .idle => none
  | .initOffset => some { s with currentOffset := 0, main := .initCb }
  | .initCb => some { s with onDataCb := true, main := .initRun }
  | .initRun => some { s with dispatcherRunning := true, main := .initThread }
  | .initThread => some ({ s with
      dispatcherThread := some s.threads
      threads := s.threads + 1
      main := .idle }.gotoLoop s.threads .test)
  | .closeJoin =>
    if ∃ i ∈ s.dispatcherThread, s.loop i = .exited then
      some { s with dispatcherThread := none, main := .closeFree }
    else none
  | .closeFree => some { s with freed := s.arena.toList ++ s.freed, main := .closeNull }
  | .closeNull => some { s with arena := none, main := .closeOffset }
  | .closeOffset => some { s with currentOffset := 0, main := .closeCb }
  | .closeCb => some { s with onDataCb := false, main := .idle }

inductive Label (P : Type) where
  | send (p : P) (len : Nat)
  | go (p : P)
  | loop (i : Nat)
  /-- `gateway_dispatcher_init` is called, with the outcome of `malloc`. -/
  | init (malloc : Bool)
  /-- `gateway_dispatcher_close` is called for a dispatcher that is open. -/
  | close
  | main

/-- A step; there is none after a fault. -/
def step (a : Label P) (s : State P) : Option (State P) :=
  if s.fault then none
  else
    match a with
    | .send p len => Arena.send p len s
    | .go p => Arena.go p s
    | .loop i => loopStep i s
    | .init malloc =>
      if s.main = .idle then
        some { s with
          arena := if malloc then some s.allocs else none
          allocs := if malloc then s.allocs + 1 else s.allocs
          main := .initOffset }
      else none
    | .close =>
      if s.main = .idle ∧ s.dispatcherThread ≠ none then
        some { s with dispatcherRunning := false, main := .closeJoin }
      else none
    | .main => mainStep s

end

def dispatcher (P : Type) [DecidableEq P] : Machine (State P) (Label P) := ⟨step⟩

/-! ## Positions -/

/-- In the critical section. -/
def SendPc.inside : SendPc → Bool
  | locked _ | copying _ | ending | unlocking => true
  | _ => false

/-- Between the test of the pointer and the last write. -/
def SendPc.uses : SendPc → Bool
  | tested _ | locked _ | copying _ | ending => true
  | _ => false

def LoopPc.inside : LoopPc → Bool
  | flushCopy | flushCall | flushReset | flushUnlock => true
  | _ => false

/-- The thread has not ended. -/
def LoopPc.live : LoopPc → Bool
  | absent | exited => false
  | _ => true

/-- Behind the test of the pointer, before the callback. -/
def LoopPc.flushes : LoopPc → Bool
  | flushLock | flushCopy | flushCall => true
  | _ => false

/-- The length of the message on its way. -/
def SendPc.len : SendPc → Option Nat
  | tested len | locked len | copying len => some len
  | _ => none

variable {P : Type} [DecidableEq P]

def Quiet (s : State P) : Label P → Prop
  | .send _ _ => s.main = .closeNull → s.arena = none
  | .main => s.main = .closeFree → ∀ p, (s.sender p).uses = false
  | .init _ => ∀ i, (s.loop i).live = false
  | _ => True

theorem SendPc.tested_of_uses {pc : SendPc} (h : pc.uses = true) (ho : pc.inside = false) :
    ∃ len, pc = tested len := by
  cases pc with
  | tested len => exact ⟨len, rfl⟩
  | outside | unlocking => cases h
  | locked | copying | ending => cases ho

theorem LoopPc.live_of_inside {pc : LoopPc} (h : pc.inside = true) : pc.live = true := by
  cases pc <;> first | rfl | cases h

theorem LoopPc.live_of_flushes {pc : LoopPc} (h : pc.flushes = true) : pc.live = true := by
  cases pc <;> first | rfl | cases h

/-! ## The critical sections -/

/-- A thread in its critical section holds the mutex, and whoever holds it is there. -/
structure Locks (s : State P) : Prop where
  senders : ∀ p, (s.sender p).inside = true ↔ s.mutex = some (.sender p)
  loops : ∀ i, (s.loop i).inside = true ↔ s.mutex = some (.loop i)
  lens : ∀ p len, (s.sender p).len = some len → len < MSG_SIZE
  fresh : ∀ i, s.threads ≤ i → s.loop i = .absent

theorem locks_init : Locks (init P) where
  senders := fun _ => iff_of_false nofun nofun
  loops := fun _ => iff_of_false nofun nofun
  lens := nofun
  fresh := fun _ _ => rfl

/-- What a step does to the mutex, by the owner `o` whose position is in the critical section
`before` and `after` it. -/
inductive MutexMove (m m' : Option (Owner P)) (o : Owner P) (before after : Bool) : Prop where
  | keep (mutex : m' = m) (inside : after = before)
  | lock (was : m = none) (mutex : m' = some o) (inside : after = true)
  | unlock (was : m = some o) (mutex : m' = none) (outside : after = false)

theorem MutexMove.self {m m' : Option (Owner P)} {o : Owner P} {before after : Bool}
    (h : MutexMove m m' o before after) (hb : before = true ↔ m = some o) :
    after = true ↔ m' = some o := by
  cases h with
  | keep mutex inside => rw [mutex, inside]; exact hb
  | lock was mutex inside => exact iff_of_true inside mutex
  | unlock was mutex outside => rw [mutex, outside]; exact iff_of_false nofun nofun

theorem MutexMove.other {m m' : Option (Owner P)} {o u : Owner P} {before after : Bool}
    (h : MutexMove m m' o before after) (hu : u ≠ o) : m' = some u ↔ m = some u := by
  cases h with
  | keep mutex => rw [mutex]
  | lock was mutex =>
    rw [was, mutex]
    exact iff_of_false (fun e => hu (Option.some.inj e).symm) nofun
  | unlock was mutex =>
    rw [was, mutex]
    exact iff_of_false nofun fun e => hu (Option.some.inj e).symm

/-- A sender moves. -/
theorem Locks.sender {s u : State P} (h : Locks s) {p : P} {pc : SendPc}
    (sender : u.sender = Function.update s.sender p pc) (loop : u.loop = s.loop)
    (threads : u.threads = s.threads)
    (move : MutexMove s.mutex u.mutex (.sender p) (s.sender p).inside pc.inside)
    (len : ∀ n, pc.len = some n → n < MSG_SIZE) : Locks u where
  senders := fun q => by
    rw [sender]
    by_cases hq : q = p
    · subst hq
      rw [Function.update_self]
      exact move.self (h.senders q)
    · rw [Function.update_of_ne hq, move.other fun e => hq (by cases e; rfl)]
      exact h.senders q
  loops := fun i => by
    rw [loop, move.other (u := .loop i) nofun]
    exact h.loops i
  lens := fun q n hn => by
    rw [sender] at hn
    by_cases hq : q = p
    · subst hq
      rw [Function.update_self] at hn
      exact len n hn
    · rw [Function.update_of_ne hq] at hn
      exact h.lens q n hn
  fresh := by rw [loop, threads]; exact h.fresh

/-- A dispatcher thread moves. -/
theorem Locks.loop {s u : State P} (h : Locks s) {i : Nat} {pc : LoopPc}
    (loop : u.loop = Function.update s.loop i pc) (sender : u.sender = s.sender)
    (threads : i < u.threads) (le : s.threads ≤ u.threads)
    (move : MutexMove s.mutex u.mutex (.loop i) (s.loop i).inside pc.inside) : Locks u where
  senders := fun p => by
    rw [sender, move.other (u := .sender p) nofun]
    exact h.senders p
  loops := fun j => by
    rw [loop]
    by_cases hj : j = i
    · subst hj
      rw [Function.update_self]
      exact move.self (h.loops j)
    · rw [Function.update_of_ne hj, move.other fun e => hj (by cases e; rfl)]
      exact h.loops j
  lens := by rw [sender]; exact h.lens
  fresh := fun j hj => by
    rw [loop, Function.update_of_ne (by omega)]
    exact h.fresh j (by omega)

theorem Locks.congr {s s' : State P} (h : Locks s) (mutex : s'.mutex = s.mutex)
    (loop : s'.loop = s.loop) (threads : s'.threads = s.threads) (sender : s'.sender = s.sender) :
    Locks s' where
  senders := by rw [mutex, sender]; exact h.senders
  loops := by rw [mutex, loop]; exact h.loops
  lens := by rw [sender]; exact h.lens
  fresh := by rw [loop, threads]; exact h.fresh

/-! ## Quiet runs -/

/-- What holds in quiet runs: the thread to join is the only one that has not ended, and it works on
an arena that is not freed; so do the senders. -/
structure Inv (s : State P) : Prop extends Locks s where
  fault : s.fault = false
  one : ∀ i, (s.loop i).live = true → s.dispatcherThread = some i ∧ s.onDataCb = true
  up : ∀ i, s.dispatcherThread = some i →
    (s.main = .idle ∧ s.dispatcherRunning = true ∧ (s.loop i).live = true) ∨ s.main = .closeJoin
  opened : (s.main = .initRun ∨ s.main = .initThread → s.onDataCb = true) ∧
    (s.main = .initThread → s.dispatcherRunning = true)
  allocated : ∀ a, s.arena = some a → a < s.allocs
  freed : ∀ a ∈ s.freed, a < s.allocs
  dangling : ∀ a, s.arena = some a → a ∈ s.freed → s.main = .closeNull
  null : (s.main = .idle ∧ s.dispatcherThread = none) ∨ s.main = .closeOffset ∨ s.main = .closeCb →
    s.arena = none
  uses : ∀ p, (s.sender p).uses = true → s.arena ≠ none ∧ s.main ≠ .closeNull
  flushes : ∀ i, (s.loop i).flushes = true → s.arena ≠ none
  offset : s.currentOffset < MAX_TOTAL_SIZE
  room : ∀ p len, s.sender p = .copying len → s.currentOffset + len + 1 < MAX_TOTAL_SIZE
  roomEnd : ∀ p, s.sender p = .ending → s.currentOffset + 1 < MAX_TOTAL_SIZE

theorem inv_init : Inv (init P) where
  toLocks := locks_init
  fault := rfl
  one := nofun
  up := nofun
  opened := ⟨nofun, nofun⟩
  allocated := nofun
  freed := nofun
  dangling := nofun
  null := fun _ => rfl
  uses := nofun
  flushes := nofun
  offset := show 0 < MAX_TOTAL_SIZE by decide
  room := nofun
  roomEnd := nofun

/-- A live thread is not in the part of a close behind the join. -/
theorem Inv.main_of_live {s : State P} (h : Inv s) {i : Nat} (hl : (s.loop i).live = true) :
    s.main = .idle ∨ s.main = .closeJoin := by
  rcases h.up i (h.one i hl).1 with hu | hu
  · exact .inl hu.1
  · exact .inr hu

/-- The arena of a sender or of a flush can be accessed. -/
theorem Inv.valid {s : State P} (h : Inv s) (ha : s.arena ≠ none) (hm : s.main ≠ .closeNull)
    {n : Nat} (hn : n ≤ MAX_TOTAL_SIZE) : s.Valid n := by
  obtain ⟨a, ha⟩ := Option.ne_none_iff_exists'.mp ha
  exact ⟨a, ha, fun hf => hm (h.dangling a ha hf), hn⟩

/-- The arena while a thread of the dispatcher flushes. -/
theorem Inv.valid_flush {s : State P} (h : Inv s) {i : Nat} (hf : (s.loop i).flushes = true) :
    s.Valid s.currentOffset := by
  refine h.valid (h.flushes i hf) (fun hm => ?_) (Nat.le_of_lt h.offset)
  rcases h.main_of_live (LoopPc.live_of_flushes hf) with e | e
  · rw [e] at hm
    cases hm
  · rw [e] at hm
    cases hm

/-! ## Senders keep it -/

/-- A sender moves; only the offset and the mutex change besides. -/
theorem Inv.sender {s : State P} (h : Inv s) {p : P} {pc : SendPc} {m : Option (Owner P)} {n : Nat}
    (move : MutexMove s.mutex m (.sender p) (s.sender p).inside pc.inside)
    (len : ∀ k, pc.len = some k → k < MSG_SIZE)
    (uses : pc.uses = true → s.arena ≠ none ∧ s.main ≠ .closeNull)
    (alone : n = s.currentOffset ∨ (s.sender p).inside = true) (offset : n < MAX_TOTAL_SIZE)
    (room : ∀ k, pc = .copying k → n + k + 1 < MAX_TOTAL_SIZE)
    (roomEnd : pc = .ending → n + 1 < MAX_TOTAL_SIZE) :
    Inv ({ s with mutex := m, currentOffset := n }.goto p pc) := by
  -- Another sender in the critical section excludes a change of the offset.
  have other : ∀ q, q ≠ p → (s.sender q).inside = true → n = s.currentOffset := fun q hq hin => by
    rcases alone with e | e
    · exact e
    · have := ((h.senders q).mp hin).symm.trans ((h.senders p).mp e)
      exact absurd (by cases this; rfl) hq
  refine ⟨h.toLocks.sender (u := { s with mutex := m, currentOffset := n }.goto p pc) rfl rfl rfl
    move len, h.fault, h.one, h.up, h.opened, h.allocated, h.freed, h.dangling, h.null, ?_,
    h.flushes, offset, ?_, ?_⟩
  · intro q hq
    by_cases hqp : q = p
    · subst hqp
      exact uses (by simpa [State.goto] using hq)
    · exact h.uses q (by simpa [State.goto, Function.update_of_ne hqp] using hq)
  · intro q k hq
    by_cases hqp : q = p
    · subst hqp
      exact room k (by simpa [State.goto] using hq)
    · have hq : s.sender q = .copying k := by simpa [State.goto, Function.update_of_ne hqp] using hq
      show n + k + 1 < MAX_TOTAL_SIZE
      rw [other q hqp (by rw [hq]; rfl)]
      exact h.room q k hq
  · intro q hq
    by_cases hqp : q = p
    · subst hqp
      exact roomEnd (by simpa [State.goto] using hq)
    · have hq : s.sender q = .ending := by simpa [State.goto, Function.update_of_ne hqp] using hq
      show n + 1 < MAX_TOTAL_SIZE
      rw [other q hqp (by rw [hq]; rfl)]
      exact h.roomEnd q hq

/-- A sender moves, and nothing else changes. -/
theorem Inv.goto {s : State P} (h : Inv s) {p : P} {pc : SendPc}
    (inside : pc.inside = (s.sender p).inside) (len : ∀ k, pc.len = some k → k < MSG_SIZE)
    (uses : pc.uses = true → s.arena ≠ none ∧ s.main ≠ .closeNull)
    (room : ∀ k, pc = .copying k → s.currentOffset + k + 1 < MAX_TOTAL_SIZE)
    (roomEnd : pc ≠ .ending) : Inv (s.goto p pc) :=
  h.sender (m := s.mutex) (n := s.currentOffset) (.keep rfl inside) len uses (.inl rfl) h.offset room
    fun e => absurd e roomEnd

theorem Inv.send {s s' : State P} (h : Inv s) {p : P} {len : Nat}
    (hq : s.main = .closeNull → s.arena = none) (hs : Arena.send p len s = some s') : Inv s' := by
  unfold Arena.send at hs
  split at hs
  · rename_i hc
    cases hs
    split
    · exact h
    · rename_i ha
      refine h.goto (by rw [hc.1]; rfl) (fun k hk => ?_) (fun _ => ⟨ha, fun hm => ha (hq hm)⟩) nofun
        nofun
      cases hk
      exact hc.2.2
  · cases hs

theorem Inv.go {s s' : State P} (h : Inv s) {p : P} (hs : Arena.go p s = some s') : Inv s' := by
  unfold Arena.go at hs
  cases hp : s.sender p with
  | outside =>
    rw [hp] at hs
    cases hs
  | tested len =>
    rw [hp] at hs
    dsimp only at hs
    split at hs
    · rename_i hm
      cases hs
      exact h.sender (n := s.currentOffset) (.lock hm rfl rfl)
        (fun k hk => h.lens p k (by rw [hp]; exact hk)) (fun _ => h.uses p (by rw [hp]; rfl))
        (.inl rfl) h.offset nofun nofun
    · cases hs
  | locked len =>
    rw [hp] at hs
    cases hs
    split
    · exact h.goto (by rw [hp]; rfl) nofun nofun nofun nofun
    · rename_i hfull
      refine h.goto (by rw [hp]; rfl) (fun k hk => h.lens p k (by rw [hp]; exact hk))
        (fun _ => h.uses p (by rw [hp]; rfl)) (fun k hk => ?_) nofun
      cases hk
      omega
  | copying len =>
    rw [hp] at hs
    cases hs
    have hroom := h.room p len hp
    have hu := h.uses p (by rw [hp]; rfl)
    rw [if_pos (h.valid hu.1 hu.2 (by omega))]
    exact h.sender (m := s.mutex) (.keep rfl (by rw [hp]; rfl)) nofun (fun _ => hu)
      (.inr (by rw [hp]; rfl)) (by omega) nofun (fun _ => hroom)
  | ending =>
    rw [hp] at hs
    cases hs
    have hroom := h.roomEnd p hp
    have hu := h.uses p (by rw [hp]; rfl)
    rw [if_pos (h.valid hu.1 hu.2 (by omega))]
    exact h.sender (m := s.mutex) (.keep rfl (by rw [hp]; rfl)) nofun nofun
      (.inr (by rw [hp]; rfl)) hroom nofun nofun
  | unlocking =>
    rw [hp] at hs
    cases hs
    have howner : s.mutex = some (.sender p) := (h.senders p).mp (by rw [hp]; rfl)
    exact h.sender (n := s.currentOffset) (.unlock howner rfl rfl) nofun nofun (.inl rfl) h.offset
      nofun nofun

/-! ## The dispatcher's threads keep it -/

/-- A thread moves and stays live, or ends while it is waited for; only the offset and the mutex
change besides. -/
theorem Inv.loop {s : State P} (h : Inv s) {i : Nat} {pc : LoopPc} {m : Option (Owner P)} {n : Nat}
    (live : (s.loop i).live = true)
    (move : MutexMove s.mutex m (.loop i) (s.loop i).inside pc.inside)
    (stays : pc.live = true ∨ s.main ≠ .idle)
    (flushes : pc.flushes = true → s.arena ≠ none)
    (alone : n = s.currentOffset ∨ (n = 0 ∧ (s.loop i).inside = true)) :
    Inv ({ s with mutex := m, currentOffset := n }.gotoLoop i pc) := by
  have hi : i < s.threads := by
    by_contra hlt
    rw [h.fresh i (by omega)] at live
    cases live
  have hle : n ≤ s.currentOffset := by
    rcases alone with e | e
    · exact Nat.le_of_eq e
    · omega
  refine ⟨h.toLocks.loop (u := { s with mutex := m, currentOffset := n }.gotoLoop i pc) rfl rfl hi
    (Nat.le_refl _) move, h.fault, ?_, ?_, h.opened, h.allocated, h.freed, h.dangling, h.null, h.uses,
    ?_, Nat.lt_of_le_of_lt hle h.offset, ?_, ?_⟩
  · intro j hj
    by_cases hji : j = i
    · subst hji
      exact h.one j live
    · exact h.one j (by simpa [State.gotoLoop, Function.update_of_ne hji] using hj)
  · intro j hj
    rcases h.up j hj with ⟨hm, hr, hl⟩ | hm
    · refine .inl ⟨hm, hr, ?_⟩
      by_cases hji : j = i
      · subst hji
        rcases stays with hs | hs
        · simpa [State.gotoLoop] using hs
        · exact absurd hm hs
      · simpa [State.gotoLoop, Function.update_of_ne hji] using hl
    · exact .inr hm
  · intro j hj
    by_cases hji : j = i
    · subst hji
      exact flushes (by simpa [State.gotoLoop] using hj)
    · exact h.flushes j (by simpa [State.gotoLoop, Function.update_of_ne hji] using hj)
  · intro q k hq
    have := h.room q k hq
    show n + k + 1 < MAX_TOTAL_SIZE
    omega
  · intro q hq
    have := h.roomEnd q hq
    show n + 1 < MAX_TOTAL_SIZE
    omega

/-- A thread moves, and nothing else changes. -/
theorem Inv.gotoLoop {s : State P} (h : Inv s) {i : Nat} {pc : LoopPc}
    (live : (s.loop i).live = true) (inside : pc.inside = (s.loop i).inside)
    (stays : pc.live = true ∨ s.main ≠ .idle) (flushes : pc.flushes = true → s.arena ≠ none) :
    Inv (s.gotoLoop i pc) :=
  h.loop (m := s.mutex) (n := s.currentOffset) live (.keep rfl inside) stays flushes (.inl rfl)

theorem Inv.loopStep {s s' : State P} (h : Inv s) {i : Nat} (hs : Arena.loopStep i s = some s') :
    Inv s' := by
  unfold Arena.loopStep at hs
  cases hp : s.loop i with
  | absent | exited =>
    rw [hp] at hs
    cases hs
  | test =>
    rw [hp] at hs
    cases hs
    have live : (s.loop i).live = true := by rw [hp]; rfl
    split
    · exact h.gotoLoop live (by rw [hp]; rfl) (.inl rfl) nofun
    · -- The flag is cleared before the join.
      rename_i hr
      refine h.gotoLoop live (by rw [hp]; rfl) (.inr fun hm => ?_) nofun
      rcases h.up i (h.one i live).1 with hu | hu
      · exact hr hu.2.1
      · rw [hm] at hu
        cases hu
  | sleep =>
    rw [hp] at hs
    cases hs
    exact h.gotoLoop (by rw [hp]; rfl) (by rw [hp]; rfl) (.inl rfl) nofun
  | check =>
    rw [hp] at hs
    dsimp only at hs
    split at hs
    · cases hs
      exact h.gotoLoop (by rw [hp]; rfl) (by rw [hp]; rfl) (.inl rfl) nofun
    · cases hs
  | looked hasData =>
    rw [hp] at hs
    cases hs
    split
    · exact h.gotoLoop (by rw [hp]; rfl) (by rw [hp]; rfl) (.inl rfl) nofun
    · exact h.gotoLoop (by rw [hp]; rfl) (by rw [hp]; rfl) (.inl rfl) nofun
  | flush =>
    rw [hp] at hs
    cases hs
    split
    · exact h.gotoLoop (by rw [hp]; rfl) (by rw [hp]; rfl) (.inl rfl) nofun
    · rename_i hfull
      exact h.gotoLoop (by rw [hp]; rfl) (by rw [hp]; rfl) (.inl rfl) fun _ ha => hfull (.inl ha)
  | flushLock =>
    rw [hp] at hs
    dsimp only at hs
    split at hs
    · rename_i hm
      cases hs
      exact h.loop (n := s.currentOffset) (by rw [hp]; rfl) (.lock hm rfl rfl) (.inl rfl)
        (fun _ => h.flushes i (by rw [hp]; rfl)) (.inl rfl)
    · cases hs
  | flushCopy =>
    rw [hp] at hs
    cases hs
    have flushes : (s.loop i).flushes = true := by rw [hp]; rfl
    rw [if_pos (h.valid_flush flushes)]
    exact h.gotoLoop (by rw [hp]; rfl) (by rw [hp]; rfl) (.inl rfl) fun _ => h.flushes i flushes
  | flushCall =>
    rw [hp] at hs
    cases hs
    have live : (s.loop i).live = true := by rw [hp]; rfl
    rw [if_pos (h.one i live).2]
    exact h.gotoLoop live (by rw [hp]; rfl) (.inl rfl) nofun
  | flushReset =>
    rw [hp] at hs
    cases hs
    exact h.loop (m := s.mutex) (n := 0) (by rw [hp]; rfl) (.keep rfl (by rw [hp]; rfl))
      (.inl rfl) nofun (.inr ⟨rfl, by rw [hp]; rfl⟩)
  | flushUnlock =>
    rw [hp] at hs
    cases hs
    have howner : s.mutex = some (.loop i) := (h.loops i).mp (by rw [hp]; rfl)
    exact h.loop (n := s.currentOffset) (by rw [hp]; rfl) (.unlock howner rfl rfl) (.inl rfl) nofun
      (.inl rfl)

/-! ## Opening and closing keep it -/

/-- Behind the join, and while the dispatcher is opened, no thread is live. -/
theorem Inv.thread_none {s : State P} (h : Inv s) (hi : s.main ≠ .idle) (hj : s.main ≠ .closeJoin) :
    s.dispatcherThread = none := by
  cases ht : s.dispatcherThread with
  | none => rfl
  | some i =>
    rcases h.up i ht with hu | hu
    · exact absurd hu.1 hi
    · exact absurd hu hj

theorem Inv.not_live {s : State P} (h : Inv s) (ht : s.dispatcherThread = none) (i : Nat) :
    (s.loop i).live = false := by
  cases hl : (s.loop i).live with
  | false => rfl
  | true =>
    rw [(h.one i hl).1] at ht
    cases ht

/-- When the threads have ended, the dispatcher is closed. -/
theorem Inv.closed {s : State P} (h : Inv s) (hm : s.main = .idle)
    (hl : ∀ i, (s.loop i).live = false) : s.dispatcherThread = none ∧ s.arena = none := by
  have ht : s.dispatcherThread = none := by
    cases ht : s.dispatcherThread with
    | none => rfl
    | some i =>
      rcases h.up i ht with hu | hu
      · rw [hl i] at hu
        cases hu.2.2
      · rw [hm] at hu
        cases hu
  exact ⟨ht, h.null (.inl ⟨hm, ht⟩)⟩

/-- A sender on its way excludes that there is no arena. -/
theorem Inv.not_uses {s : State P} (h : Inv s) (ha : s.arena = none) (p : P) :
    (s.sender p).uses = false := by
  cases hu : (s.sender p).uses with
  | false => rfl
  | true => exact absurd ha (h.uses p hu).1

theorem not_flushes {s : State P} {i : Nat} (hl : (s.loop i).live = false) :
    (s.loop i).flushes ≠ true := fun hf => by
  rw [LoopPc.live_of_flushes hf] at hl
  cases hl

theorem Inv.init {s : State P} (h : Inv s) (malloc : Bool) (hm : s.main = .idle)
    (hl : ∀ i, (s.loop i).live = false) :
    Inv { s with
      arena := if malloc then some s.allocs else none
      allocs := if malloc then s.allocs + 1 else s.allocs
      main := .initOffset } := by
  obtain ⟨ht, ha⟩ := h.closed hm hl
  have hle : s.allocs ≤ if malloc then s.allocs + 1 else s.allocs := by
    split
    · exact Nat.le_succ _
    · exact Nat.le_refl _
  refine ⟨h.toLocks.congr rfl rfl rfl rfl, h.fault, h.one, fun i hi => ?_, ⟨nofun, nofun⟩,
    fun a he => ?_, fun a hf => Nat.lt_of_lt_of_le (h.freed a hf) hle, fun a he hf => ?_, fun hc => ?_,
    fun p hu => ?_, fun i hf => absurd hf (not_flushes (hl i)), h.offset, h.room, h.roomEnd⟩
  · rw [show s.dispatcherThread = some i from hi] at ht
    cases ht
  · cases malloc with
    | true =>
      cases he
      exact Nat.lt_succ_self _
    | false => cases he
  · cases malloc with
    | true =>
      cases he
      exact absurd (h.freed s.allocs hf) (Nat.lt_irrefl _)
    | false => cases he
  · rcases hc with ⟨hc, -⟩ | hc | hc <;> cases hc
  · rw [h.not_uses ha p] at hu
    cases hu

theorem Inv.close {s : State P} (h : Inv s) (hm : s.main = .idle) :
    Inv { s with dispatcherRunning := false, main := .closeJoin } where
  toLocks := h.toLocks.congr rfl rfl rfl rfl
  fault := h.fault
  one := h.one
  up := fun _ _ => .inr rfl
  opened := ⟨nofun, nofun⟩
  allocated := h.allocated
  freed := h.freed
  dangling := fun a ha hf => by
    have := h.dangling a ha hf
    rw [hm] at this
    cases this
  null := fun hc => by rcases hc with ⟨hc, -⟩ | hc | hc <;> cases hc
  uses := fun p hu => ⟨(h.uses p hu).1, nofun⟩
  flushes := h.flushes
  offset := h.offset
  room := h.room
  roomEnd := h.roomEnd

/-- No thread of the dispatcher is live, and nothing but the offset, the callback, the flag and the
position changes. -/
theorem Inv.quietly {s : State P} (h : Inv s) (hi : s.main ≠ .idle) (hj : s.main ≠ .closeJoin)
    (hn : s.main ≠ .closeNull) {n : Nat} {cb running : Bool} {m : MainPc}
    (offset : n ≤ s.currentOffset)
    (opened : (m = .initRun ∨ m = .initThread → cb = true) ∧ (m = .initThread → running = true))
    (idle : m = .idle ∨ m = .closeOffset ∨ m = .closeCb → s.arena = none) (null : m ≠ .closeNull) :
    Inv { s with currentOffset := n, onDataCb := cb, dispatcherRunning := running, main := m } := by
  have ht := h.thread_none hi hj
  refine ⟨h.toLocks.congr rfl rfl rfl rfl, h.fault, fun i hl => ?_, fun i he => ?_, opened, h.allocated,
    h.freed, fun a ha hf => absurd (h.dangling a ha hf) hn, fun hc => idle ?_,
    fun p hu => ⟨(h.uses p hu).1, null⟩, h.flushes, Nat.lt_of_le_of_lt offset h.offset,
    fun p k hk => ?_, fun p hp => ?_⟩
  · exact absurd (h.not_live ht i) (by rw [show (s.loop i).live = true from hl]; exact nofun)
  · rw [show s.dispatcherThread = some i from he] at ht
    cases ht
  · rcases hc with ⟨hc, -⟩ | hc
    · exact .inl hc
    · exact .inr hc
  · have := h.room p k hk
    show n + k + 1 < MAX_TOTAL_SIZE
    omega
  · have := h.roomEnd p hp
    show n + 1 < MAX_TOTAL_SIZE
    omega

theorem Inv.created {s : State P} (h : Inv s) (hm : s.main = .initThread) :
    Inv ({ s with
      dispatcherThread := some s.threads
      threads := s.threads + 1
      main := .idle }.gotoLoop s.threads .test) := by
  have ht : s.dispatcherThread = none :=
    h.thread_none (by rw [hm]; exact nofun) (by rw [hm]; exact nofun)
  have hnew := h.fresh s.threads (Nat.le_refl _)
  have hold : ∀ i, i ≠ s.threads → (Function.update s.loop s.threads .test i).live = false :=
    fun i hi => by
      rw [Function.update_of_ne hi]
      exact h.not_live ht i
  refine ⟨h.toLocks.loop (u := { s with
      dispatcherThread := some s.threads
      threads := s.threads + 1
      main := .idle }.gotoLoop s.threads .test) rfl rfl (Nat.lt_succ_self _) (Nat.le_succ _)
      (.keep rfl (by rw [hnew]; rfl)), h.fault, fun i hl => ?_, fun i hi => ?_, ⟨nofun, nofun⟩,
    h.allocated, h.freed, fun a ha hf => ?_, fun hc => ?_, fun p hu => ⟨(h.uses p hu).1, nofun⟩,
    fun i hf => ?_, h.offset, h.room, h.roomEnd⟩
  · by_cases hi : i = s.threads
    · subst hi
      exact ⟨rfl, h.opened.1 (.inr hm)⟩
    · have hl : (Function.update s.loop s.threads .test i).live = true := hl
      rw [hold i hi] at hl
      cases hl
  · cases hi
    exact .inl ⟨rfl, h.opened.2 hm, by simp [State.gotoLoop, LoopPc.live]⟩
  · have := h.dangling a ha hf
    rw [hm] at this
    cases this
  · rcases hc with ⟨-, hc⟩ | hc | hc <;> cases hc
  · by_cases hi : i = s.threads
    · subst hi
      simp [State.gotoLoop, LoopPc.flushes] at hf
    · have hl : (Function.update s.loop s.threads .test i).live = true := LoopPc.live_of_flushes hf
      rw [hold i hi] at hl
      cases hl

theorem Inv.joined {s : State P} (h : Inv s) (hm : s.main = .closeJoin) {i : Nat}
    (hi : s.dispatcherThread = some i) (hx : s.loop i = .exited) :
    Inv { s with dispatcherThread := none, main := .closeFree } where
  toLocks := h.toLocks.congr rfl rfl rfl rfl
  fault := h.fault
  one := fun j hl => by
    have hj := (h.one j hl).1
    rw [hi] at hj
    cases hj
    rw [show s.loop i = .exited from hx] at hl
    cases hl
  up := nofun
  opened := ⟨nofun, nofun⟩
  allocated := h.allocated
  freed := h.freed
  dangling := fun a ha hf => by
    have := h.dangling a ha hf
    rw [hm] at this
    cases this
  null := fun hc => by rcases hc with ⟨hc, -⟩ | hc | hc <;> cases hc
  uses := fun p hu => ⟨(h.uses p hu).1, nofun⟩
  flushes := h.flushes
  offset := h.offset
  room := h.room
  roomEnd := h.roomEnd

theorem Inv.freeArena {s : State P} (h : Inv s) (hm : s.main = .closeFree)
    (hq : ∀ p, (s.sender p).uses = false) :
    Inv { s with freed := s.arena.toList ++ s.freed, main := .closeNull } := by
  have ht : s.dispatcherThread = none :=
    h.thread_none (by rw [hm]; exact nofun) (by rw [hm]; exact nofun)
  refine ⟨h.toLocks.congr rfl rfl rfl rfl, h.fault, h.one, fun i hi => ?_, ⟨nofun, nofun⟩, h.allocated,
    fun a ha => ?_, fun _ _ _ => rfl, fun hc => ?_, fun p hu => ?_, h.flushes, h.offset, h.room,
    h.roomEnd⟩
  · rw [show s.dispatcherThread = some i from hi] at ht
    cases ht
  · rcases List.mem_append.mp ha with ha | ha
    · exact h.allocated a (by simpa using ha)
    · exact h.freed a ha
  · rcases hc with ⟨hc, -⟩ | hc | hc <;> cases hc
  · exact absurd (hq p) (by rw [show (s.sender p).uses = true from hu]; exact nofun)

theorem Inv.cleared {s : State P} (h : Inv s) (hm : s.main = .closeNull) :
    Inv { s with arena := none, main := .closeOffset } := by
  have ht : s.dispatcherThread = none :=
    h.thread_none (by rw [hm]; exact nofun) (by rw [hm]; exact nofun)
  refine ⟨h.toLocks.congr rfl rfl rfl rfl, h.fault, h.one, fun i hi => ?_, ⟨nofun, nofun⟩, nofun,
    h.freed, nofun, fun _ => rfl, fun p hu => absurd hm (h.uses p hu).2,
    fun i hf => absurd hf (not_flushes (h.not_live ht i)), h.offset, h.room, h.roomEnd⟩
  rw [show s.dispatcherThread = some i from hi] at ht
  cases ht

theorem Inv.mainStep {s s' : State P} (h : Inv s) (hq : Quiet s .main)
    (hs : Arena.mainStep s = some s') : Inv s' := by
  unfold Arena.mainStep at hs
  cases hm : s.main with
  | idle =>
    rw [hm] at hs
    cases hs
  | initOffset =>
    rw [hm] at hs
    cases hs
    exact h.quietly (n := 0) (by rw [hm]; exact nofun) (by rw [hm]; exact nofun)
      (by rw [hm]; exact nofun) (Nat.zero_le _) ⟨nofun, nofun⟩ nofun nofun
  | initCb =>
    rw [hm] at hs
    cases hs
    exact h.quietly (by rw [hm]; exact nofun) (by rw [hm]; exact nofun) (by rw [hm]; exact nofun)
      (Nat.le_refl _) ⟨fun _ => rfl, nofun⟩ nofun nofun
  | initRun =>
    rw [hm] at hs
    cases hs
    exact h.quietly (by rw [hm]; exact nofun) (by rw [hm]; exact nofun) (by rw [hm]; exact nofun)
      (Nat.le_refl _) ⟨fun _ => h.opened.1 (.inl hm), fun _ => rfl⟩ nofun nofun
  | initThread =>
    rw [hm] at hs
    cases hs
    exact h.created hm
  | closeJoin =>
    rw [hm] at hs
    dsimp only at hs
    split at hs
    · rename_i hj
      obtain ⟨i, hi, hx⟩ := hj
      cases hs
      exact h.joined hm hi hx
    · cases hs
  | closeFree =>
    rw [hm] at hs
    cases hs
    exact h.freeArena hm (hq hm)
  | closeNull =>
    rw [hm] at hs
    cases hs
    exact h.cleared hm
  | closeOffset =>
    rw [hm] at hs
    cases hs
    exact h.quietly (n := 0) (by rw [hm]; exact nofun) (by rw [hm]; exact nofun)
      (by rw [hm]; exact nofun) (Nat.zero_le _) ⟨nofun, nofun⟩
      (fun _ => h.null (.inr (.inl hm))) nofun
  | closeCb =>
    rw [hm] at hs
    cases hs
    exact h.quietly (by rw [hm]; exact nofun) (by rw [hm]; exact nofun) (by rw [hm]; exact nofun)
      (Nat.le_refl _) ⟨nofun, nofun⟩ (fun _ => h.null (.inr (.inr hm))) nofun

/-- **Quiet steps keep it.** -/
theorem inv_keeps : (dispatcher P).Keeps Quiet Inv := by
  intro s a s' h hq hs
  simp only [dispatcher, step] at hs
  rw [if_neg (by rw [h.fault]; exact nofun)] at hs
  cases a with
  | send p len => exact h.send hq hs
  | go p => exact h.go hs
  | loop i => exact h.loopStep hs
  | init malloc =>
    dsimp only at hs
    split at hs
    · rename_i hm
      cases hs
      exact h.init malloc hm hq
    · cases hs
  | close =>
    dsimp only at hs
    split at hs
    · rename_i hm
      cases hs
      exact h.close hm.1
    · cases hs
  | main => exact h.mainStep hq hs

/-! ## Runs into a fault -/

/-- Some quiet steps come to a fault. -/
def Faults (s : State P) : Prop :=
  ∃ bs t, (dispatcher P).Meets Quiet bs s ∧ (dispatcher P).run bs s = some t ∧ t.fault = true

theorem Faults.of_step {s s' : State P} {a : Label P} (h : Faults s') (hq : Quiet s a)
    (hs : (dispatcher P).step a s = some s') : Faults s := by
  obtain ⟨bs, t, hm, hr, ht⟩ := h
  exact ⟨a :: bs, t, hm.cons hq hs, Machine.run_cons_some.mpr ⟨s', hs, hr⟩, ht⟩

theorem Faults.now {s : State P} (h : s.fault = true) : Faults s :=
  ⟨[], s, trivial, rfl, h⟩

/-- A sender goes on. -/
theorem Faults.of_go {s u : State P} {p : P} (h : Faults u) (hf : s.fault = false)
    (hs : Arena.go p s = some u) : Faults s :=
  h.of_step (a := .go p) trivial (by simp only [dispatcher, step, hf]; exact hs)

/-- The gateway's thread goes on; it is not at the `free`. -/
theorem Faults.of_main {s s' : State P} (h : Faults s') (hf : s.fault = false)
    (hm : s.main ≠ .closeFree) (hs : mainStep s = some s') : Faults s :=
  h.of_step (a := .main) (fun he => absurd he hm) (by simp only [dispatcher, step, hf]; exact hs)

theorem not_valid {s : State P} (ha : s.arena = none) (n : Nat) : ¬ s.Valid n := by
  rintro ⟨a, he, -⟩
  rw [ha] at he
  cases he

/-- A write without an arena. -/
theorem faults_writing {s : State P} (hf : s.fault = false) (ha : s.arena = none) {p : P}
    (hp : (∃ len, s.sender p = .copying len) ∨ s.sender p = .ending) : Faults s := by
  refine Faults.of_go (p := p) (u := { s with fault := true }) (.now rfl) hf ?_
  rcases hp with ⟨len, hp⟩ | hp
  · unfold Arena.go
    rw [hp]
    exact congrArg some (if_neg (not_valid ha _))
  · unfold Arena.go
    rw [hp]
    exact congrArg some (if_neg (not_valid ha _))

/-- A sender with the lock finds room, as a message is shorter than the arena. -/
theorem faults_locked {s : State P} (hf : s.fault = false) (ha : s.arena = none)
    (ho : s.currentOffset = 0) {p : P} {len : Nat} (hp : s.sender p = .locked len)
    (hlen : len < MSG_SIZE) : Faults s := by
  have hroom : ¬ s.currentOffset + len + 1 ≥ MAX_TOTAL_SIZE := by
    rw [ho]
    show ¬ 0 + len + 1 ≥ 1024 * 64
    have : len < 1024 := hlen
    omega
  have hnext : Faults (s.goto p (.copying len)) :=
    faults_writing hf ha (p := p) (.inl ⟨len, Function.update_self ..⟩)
  refine hnext.of_go (p := p) hf ?_
  unfold Arena.go
  rw [hp]
  exact congrArg some (if_neg hroom)

theorem faults_tested {s : State P} (hf : s.fault = false) (ha : s.arena = none)
    (ho : s.currentOffset = 0) (hm : s.mutex = none) {p : P} {len : Nat}
    (hp : s.sender p = .tested len) (hlen : len < MSG_SIZE) : Faults s := by
  have hnext : Faults ({ s with mutex := some (.sender p) }.goto p (.locked len)) :=
    faults_locked hf ha ho (p := p) (Function.update_self ..) hlen
  refine hnext.of_go (p := p) hf ?_
  unfold Arena.go
  rw [hp]
  exact if_pos hm

/-- The sender with the lock is the one that comes to the fault, or leaves the lock to one. -/
theorem faults_cleared {s : State P} (h : Locks s) (hf : s.fault = false) (ha : s.arena = none)
    (ho : s.currentOffset = 0) (hl : ∀ i, (s.loop i).inside = false) {p : P}
    (hp : (s.sender p).uses = true) : Faults s := by
  have tested : s.mutex ≠ some (.sender p) →
      ∃ len, s.sender p = .tested len ∧ len < MSG_SIZE := fun hm => by
    have ho : (s.sender p).inside = false := by
      cases hi : (s.sender p).inside with
      | false => rfl
      | true => exact absurd ((h.senders p).mp hi) hm
    obtain ⟨len, hlen⟩ := SendPc.tested_of_uses hp ho
    exact ⟨len, hlen, h.lens p len (by rw [hlen]; rfl)⟩
  cases hm : s.mutex with
  | none =>
    obtain ⟨len, hp, hlen⟩ := tested (by rw [hm]; exact nofun)
    exact faults_tested hf ha ho hm hp hlen
  | some o =>
    cases o with
    | loop i =>
      have hin := (h.loops i).mpr hm
      rw [hl i] at hin
      cases hin
    | sender q =>
      have hin := (h.senders q).mpr hm
      cases hq : s.sender q with
      | outside | tested =>
        rw [hq] at hin
        cases hin
      | locked len => exact faults_locked hf ha ho hq (h.lens q len (by rw [hq]; rfl))
      | copying len => exact faults_writing hf ha (.inl ⟨len, hq⟩)
      | ending => exact faults_writing hf ha (.inr hq)
      | unlocking =>
        have hpq : p ≠ q := fun e => by
          rw [e, hq] at hp
          cases hp
        obtain ⟨len, hp, hlen⟩ := tested fun he => by
          rw [hm] at he
          cases he
          exact hpq rfl
        have hnext : Faults ({ s with mutex := none }.goto q .outside) :=
          faults_tested hf ha ho rfl (p := p) ((Function.update_of_ne hpq _ _).trans hp) hlen
        refine hnext.of_go (p := q) hf ?_
        unfold Arena.go
        rw [hq]

/-- Between the `free` and the clearing of the pointer, a sender that has passed its test comes to a
fault. -/
theorem faults_freed {s : State P} (h : Locks s) (hf : s.fault = false) (hm : s.main = .closeNull)
    (hl : ∀ i, (s.loop i).inside = false) {p : P} (hp : (s.sender p).uses = true) : Faults s := by
  have hoff : Faults { s with arena := none, currentOffset := 0, main := .closeCb } :=
    faults_cleared (h.congr rfl rfl rfl rfl) hf rfl rfl hl hp
  have hnull : Faults { s with arena := none, main := .closeOffset } :=
    hoff.of_main hf nofun rfl
  refine hnull.of_main hf (by rw [hm]; exact nofun) ?_
  unfold Arena.mainStep
  rw [hm]

/-- A step that is not quiet, other than an `init`, can be followed by a fault. -/
theorem faults_of_not_quiet {s s' : State P} (h : Inv s) {a : Label P}
    (ha : ∀ malloc, a ≠ .init malloc) (hs : (dispatcher P).step a s = some s') (hq : ¬ Quiet s a) : Faults s' := by
  have closed : s.main ≠ .idle → s.main ≠ .closeJoin → ∀ i, (s.loop i).inside = false :=
    fun hi hj i => by
      have hl := h.not_live (h.thread_none hi hj) i
      cases hin : (s.loop i).inside with
      | false => rfl
      | true =>
        rw [LoopPc.live_of_inside hin] at hl
        cases hl
  simp only [dispatcher, step] at hs
  rw [if_neg (by rw [h.fault]; exact nofun)] at hs
  cases a with
  | go | loop | close => exact absurd trivial hq
  | init malloc => exact absurd rfl (ha malloc)
  | send p len =>
    obtain ⟨hm, hne⟩ : s.main = .closeNull ∧ s.arena ≠ none := by simpa [Quiet] using hq
    dsimp only [Arena.send] at hs
    split at hs
    · rename_i hc
      cases hs
      have hlocks : Locks (s.goto p (.tested len)) :=
        h.toLocks.sender (u := s.goto p (.tested len)) rfl rfl rfl (.keep rfl (by rw [hc.1]; rfl))
          fun k hk => by cases hk; exact hc.2.2
      refine faults_freed (p := p) hlocks h.fault hm
        (closed (by rw [hm]; exact nofun) (by rw [hm]; exact nofun)) ?_
      show (Function.update s.sender p (.tested len) p).uses = true
      rw [Function.update_self]
      rfl
    · cases hs
  | main =>
    obtain ⟨hm, p, hp⟩ : s.main = .closeFree ∧ ∃ p, (s.sender p).uses = true := by
      simpa [Quiet] using hq
    dsimp only [Arena.mainStep] at hs
    rw [hm] at hs
    cases hs
    exact faults_freed (p := p) (h.toLocks.congr rfl rfl rfl rfl) h.fault rfl
      (closed (by rw [hm]; exact nofun) (by rw [hm]; exact nofun)) hp

/-! ## Result -/

/-- The dispatcher is opened, a message is sent while it is closed, and its sender still waits for
the lock when the thread has ended. -/
def closing : List (Label Unit) :=
  [.init true, .main, .main, .main, .main, .send () 5, .close, .loop 0, .main]

/-- **Closing the dispatcher.** A quiet run has no fault, and its next step, if it is not an `init`,
excludes every fault to come exactly when it is quiet. -/
theorem close_safe_iff {as : List (Label P)} {s : State P}
    (hm : (dispatcher P).Meets Quiet as (init P)) (hr : (dispatcher P).run as (init P) = some s) :
    s.fault = false ∧
      ∀ a s', (∀ malloc, a ≠ .init malloc) → (dispatcher P).step a s = some s' →
        (Quiet s a ↔ ¬ Faults s') := by
  have hinv : Inv s := inv_keeps.run inv_init hm hr
  refine ⟨hinv.fault, fun a s' ha hs => ⟨fun hq => ?_, fun hn => ?_⟩⟩
  · rintro ⟨bs, t, hbs, ht, hf⟩
    have := (inv_keeps.run (inv_keeps s a s' hinv hq hs) hbs ht).fault
    rw [hf] at this
    cases this
  · by_contra hq
    exact hn (faults_of_not_quiet hinv ha hs hq)

theorem closing_quiet : (dispatcher Unit).Meets Quiet closing (init Unit) :=
  .cons (fun _ => rfl) rfl <| .cons nofun rfl <| .cons nofun rfl <| .cons nofun rfl <|
    .cons nofun rfl <| .cons nofun rfl <| .cons trivial rfl <| .cons trivial rfl <|
    .cons nofun rfl trivial

/-- The `free` is then one step too early. -/
theorem close_safe_iff_closing :
    ∃ s s', (dispatcher Unit).run closing (init Unit) = some s ∧ s.fault = false ∧
      (dispatcher Unit).step .main s = some s' ∧ Faults s' := by
  obtain ⟨s, hs⟩ : ∃ s, (dispatcher Unit).run closing (init Unit) = some s := ⟨_, rfl⟩
  obtain ⟨hf, hiff⟩ := close_safe_iff closing_quiet hs
  obtain ⟨s', hs'⟩ : ∃ s', (dispatcher Unit).step .main s = some s' := by
    cases hs
    exact ⟨_, rfl⟩
  have hq : ¬ Quiet s .main := fun hq => by
    cases hs
    cases hq rfl ()
  refine ⟨s, s', hs, hf, hs', ?_⟩
  by_contra hn
  exact hq ((hiff .main s' nofun hs').mpr hn)

end Arena
end CoreCDTL
