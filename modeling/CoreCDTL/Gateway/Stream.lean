import CoreCDTL.Gateway.Dispatcher

/-!
# The dispatcher: the stream of messages

The gateway gets one stream of bytes: the accepted messages in order, each with a newline.

* `lines`: this stream. `State.pending`: the part of it that is still in the arena.
* `Inv`: what was passed on and what is pending make up the stream; the arena is never full;
  `adding` and `flushing` calls have an arena to work on. Every step keeps it (`inv_keeps`).
* `stream_faithful`: what the invariant says of every run up to the end of
  `gateway_dispatcher_close`.
* `State.Delivers`: the loop will still flush what is in the arena. `closing_iff`: when
  `gateway_dispatcher_close` has returned, every accepted message was passed on if and only if
  this held when it cleared `dispatcher_running`.
-/

namespace CoreCDTL
namespace Dispatcher

/-- The messages as the gateway should get them. -/
def lines (msgs : List Msg) : List UInt8 := msgs.flatMap fun m => m.bytes ++ [newline]

/-- The first `current_offset` bytes of the arena. -/
def State.pending (s : State) : List UInt8 :=
  match s.arena with
  | none => []
  | some arena => arena.read 0 s.currentOffset

@[simp] theorem lines_append (ms : List Msg) (m : Msg) :
    lines (ms ++ [m]) = lines ms ++ (m.bytes ++ [newline]) := by
  simp [lines]

/-! ## What the functions do -/

theorem pending_copy {s : State} (h : s.arena ≠ none) (bytes : List UInt8) :
    (s.copy bytes).pending = s.pending ++ bytes := by
  cases ha : s.arena with
  | none => exact absurd ha h
  | some arena =>
    simp only [State.pending, State.copy, ha, Option.map_some]
    exact arena.read_write_append s.currentOffset bytes

theorem copy_arena {s : State} (h : s.arena ≠ none) (bytes : List UInt8) :
    (s.copy bytes).arena ≠ none := by
  simpa [State.copy] using h

/-- Without an arena a message is refused at once. -/
theorem addTest_cases (s : State) (msg : Msg) :
    (s.arena = none ∧ addTest msg s =
      { s with calls := s.calls ++ [msg], dropped := s.dropped ++ [(msg, s.currentOffset)] }) ∨
      (s.arena ≠ none ∧ addTest msg s =
        { s with calls := s.calls ++ [msg], adding := s.adding ++ [msg] }) := by
  cases ha : s.arena with
  | none => simp [addTest, ha, State.drop]
  | some arena => simp [addTest, ha]

/-- A message is refused when it does not fit with its newline and a byte to spare, and copied
otherwise; the addition of `size_t` does not wrap around. -/
theorem addLocked_cases {s : State} (hs : s.currentOffset < MAX_TOTAL_SIZE) (msg : Msg) :
    (MAX_TOTAL_SIZE ≤ s.currentOffset + msg.bytes.length + 1 ∧ addLocked msg s = s.drop msg) ∨
      (s.currentOffset + msg.bytes.length + 1 < MAX_TOTAL_SIZE ∧
        addLocked msg s =
          { (s.copy msg.bytes).copy [newline] with accepted := s.accepted ++ [msg] }) := by
  have hlt := msg.lt
  have hmax : MAX_TOTAL_SIZE = 65536 := rfl
  have hsize : MSG_SIZE = 1024 := rfl
  have hmod : (s.currentOffset + msg.bytes.length + 1) % 2 ^ 64 =
      s.currentOffset + msg.bytes.length + 1 := Nat.mod_eq_of_lt (by omega)
  unfold addLocked
  rw [hmod]
  by_cases hfull : MAX_TOTAL_SIZE ≤ s.currentOffset + msg.bytes.length + 1
  · exact .inl ⟨hfull, if_pos hfull⟩
  · exact .inr ⟨Nat.lt_of_not_le hfull, if_neg hfull⟩

/-- A flush passes on what is pending. -/
theorem flushLocked_some {s s' : State} (h : flushLocked s = some s') :
    s.arena ≠ none ∧ s' = { s with
      passed := s.passed ++ [s.pending]
      overrun := s.overrun || decide (MAX_TOTAL_SIZE < s.currentOffset)
      currentOffset := 0 } := by
  unfold flushLocked at h
  cases ha : s.arena with
  | none => simp [ha] at h
  | some arena =>
    cases hc : s.onDataCb with
    | none => simp [ha, hc] at h
    | some lib =>
      simp only [ha, hc, Option.some.injEq] at h
      subst h
      simp [State.pending, ha]

/-! ## The invariant -/

/-- What holds in every state; `arena` is what `malloc` gave. -/
structure Inv (arena : Option Mem) (s : State) : Prop where
  stream : s.main ≠ .closed → s.passed.flatten ++ s.pending = lines s.accepted
  offset : s.currentOffset < MAX_TOTAL_SIZE
  overrun : s.overrun = false
  calls : s.calls.Perm (s.accepted ++ s.dropped.map Prod.fst ++ s.adding)
  dropped : ∀ p ∈ s.dropped, MAX_TOTAL_SIZE ≤ p.2 + p.1.bytes.length + 1 ∨ arena = none
  allocated : s.main ≠ .closed → (s.arena = none ↔ arena = none)
  /-- Without an arena no call gets to its lock. -/
  empty : s.arena = none →
    s.currentOffset = 0 ∧ s.adding = [] ∧ s.flushing = 0 ∧ s.loop ≠ .flush
  callback : s.main ≠ .closed → s.onDataCb ≠ none
  closing : s.main ≠ .running → s.adding = [] ∧ s.flushing = 0 ∧ s.dispatcherRunning = false
  joined : s.main = .closed → s.loop = .exited

theorem inv_init (arena : Option Mem) (onDataFn : Nat) : Inv arena (init arena onDataFn) where
  stream := fun _ => by cases arena <;> rfl
  offset := Nat.succ_pos _
  overrun := rfl
  calls := .nil
  dropped := fun _ h => nomatch h
  allocated := fun _ => Iff.rfl
  empty := fun _ => ⟨rfl, rfl, rfl, nofun⟩
  callback := fun _ => nofun
  closing := fun h => absurd rfl h
  joined := fun h => nomatch h

section Steps

variable {arena : Option Mem} {s s' : State}

/-- The call of the message at `i` ends: it is accepted or refused. -/
theorem calls_locked (hi : Inv arena s) {i : Nat} {msg : Msg} (h : s.adding[i]? = some msg)
    {acc drp : List Msg} (hp : (acc ++ drp).Perm (msg :: (s.accepted ++ s.dropped.map Prod.fst))) :
    s.calls.Perm (acc ++ drp ++ s.adding.eraseIdx i) := by
  obtain ⟨hlt, rfl⟩ := List.getElem?_eq_some_iff.mp h
  refine hi.calls.trans ?_
  refine ((List.getElem_cons_eraseIdx_perm hlt).symm.append_left _).trans ?_
  exact List.perm_middle.trans (hp.symm.append_right (s.adding.eraseIdx i))

theorem Inv.add (hi : Inv arena s) (hm : s.main = .running) (msg : Msg) :
    Inv arena (addTest msg s) := by
  rcases addTest_cases s msg with ⟨ha, he⟩ | ⟨ha, he⟩ <;> rw [he]
  · have hnone : arena = none := (hi.allocated (by simp [hm])).mp ha
    have hcalls : s.calls.Perm (s.accepted ++ s.dropped.map Prod.fst) := by
      simpa [(hi.empty ha).2.1] using hi.calls
    exact { hi with
      dropped := fun p hp => .inr hnone
      calls := by simpa [(hi.empty ha).2.1] using hcalls.append_right [msg] }
  · exact { hi with
      empty := fun h => absurd h ha
      calls := by simpa using hi.calls.append_right [msg]
      closing := fun h => absurd hm h }

theorem Inv.addLocked (hi : Inv arena s) {i : Nat} {msg : Msg} (h : s.adding[i]? = some msg) :
    Inv arena { addLocked msg s with adding := s.adding.eraseIdx i } := by
  have hne : s.adding ≠ [] := fun e => by simp [e] at h
  have hm : s.main = .running := by
    by_contra hm
    exact hne (hi.closing hm).1
  have ha : s.arena ≠ none := fun ha => hne (hi.empty ha).2.1
  rcases addLocked_cases hi.offset msg with ⟨hfull, he⟩ | ⟨hfits, he⟩
  · rw [he]
    refine { hi with
      calls := calls_locked hi h ?_
      dropped := fun p hp => ?_
      empty := fun h => absurd h ha
      closing := fun h => absurd hm h }
    · simp only [State.drop, List.map_append, List.map_cons, List.map_nil, ← List.append_assoc]
      exact List.perm_append_singleton msg _
    · rcases List.mem_append.mp hp with hp | hp
      · exact hi.dropped p hp
      · rw [List.mem_singleton.mp hp]
        exact .inl hfull
  · rw [he]
    have hcopy := copy_arena ha msg.bytes
    exact {
      stream := fun hc => by
        show s.passed.flatten ++ ((s.copy msg.bytes).copy [newline]).pending = _
        rw [pending_copy hcopy, pending_copy ha, lines_append, ← hi.stream hc]
        simp only [List.append_assoc]
      offset := by
        simp only [State.copy, List.length_singleton]
        exact hfits
      overrun := by
        have := hi.overrun
        simp only [State.copy, List.length_singleton, this, Bool.false_or, Bool.or_eq_false_iff,
          decide_eq_false_iff_not]
        omega
      calls := calls_locked hi h (by rw [List.append_assoc]; exact List.perm_middle)
      dropped := hi.dropped
      allocated := fun hc => by
        simpa [State.copy] using hi.allocated hc
      empty := fun hn => absurd hn (copy_arena hcopy [newline])
      callback := hi.callback
      closing := fun h => absurd hm h
      joined := hi.joined }

/-- A flush, by the loop or by another thread. -/
theorem Inv.flush (hi : Inv arena s) (h : flushLocked s = some s') : Inv arena s' := by
  obtain ⟨ha, rfl⟩ := flushLocked_some h
  refine { hi with
    stream := fun hc => ?_
    offset := Nat.succ_pos _
    overrun := ?_
    empty := fun hn => absurd hn ha }
  · show (s.passed ++ [s.pending]).flatten ++ State.pending _ = lines s.accepted
    rw [← hi.stream hc]
    cases hs : s.arena with
    | none => exact absurd hs ha
    | some a => simp [State.pending, hs, Mem.read]
  · have := hi.offset
    simp [hi.overrun, Nat.le_of_lt this]

/-- The loop moves without a look at the arena. -/
theorem Inv.move (hi : Inv arena s) {pc : LoopPc} (hpc : s.arena = none → pc ≠ .flush)
    (hx : s.loop ≠ .exited) : Inv arena { s with loop := pc } :=
  { hi with
    empty := fun h => ⟨(hi.empty h).1, (hi.empty h).2.1, (hi.empty h).2.2.1, hpc h⟩
    joined := fun h => absurd (hi.joined h) hx }

theorem Inv.loopStep (hi : Inv arena s) (h : loopStep s = some s') : Inv arena s' := by
  unfold Dispatcher.loopStep at h
  cases hl : s.loop with
  | test =>
    simp only [hl, Option.some.injEq] at h
    subst h
    exact hi.move (fun _ => by split <;> simp) (by simp [hl])
  | sleep | check =>
    simp only [hl, Option.some.injEq] at h
    subst h
    exact hi.move (fun _ => by simp) (by simp [hl])
  | looked hasData =>
    simp only [hl, Option.some.injEq] at h
    subst h
    refine hi.move (fun hn => ?_) (by simp [hl])
    simp [State.flushTest, hn]
  | flush =>
    simp only [hl] at h
    obtain ⟨t, ht, rfl⟩ := Option.map_eq_some_iff.mp h
    have hlt : t.loop = .flush := by
      rw [(flushLocked_some ht).2]
      exact hl
    exact (hi.flush ht).move (fun _ => by simp) (by simp [hlt])
  | exited => simp [hl] at h

end Steps

theorem inv_keeps (arena : Option Mem) : dispatcher.Keeps (fun _ _ => True) (Inv arena) := by
  intro s l s' hi _ h
  replace h : step l s = some s' := h
  cases l with
  | add msg =>
    simp only [step] at h
    split at h
    · cases h
      exact hi.add ‹_› msg
    · cases h
  | addLocked i =>
    obtain ⟨msg, hmsg, rfl⟩ := Option.map_eq_some_iff.mp h
    exact hi.addLocked hmsg
  | flush =>
    simp only [step] at h
    split at h
    · rename_i hm
      cases h
      refine { hi with
        empty := fun hn => ?_
        closing := fun hc => absurd hm hc }
      obtain ⟨h₁, h₂, h₃, h₄⟩ := hi.empty hn
      refine ⟨h₁, h₂, ?_, h₄⟩
      simp [State.flushTest, h₁, h₃]
    · cases h
  | flushLocked =>
    simp only [step] at h
    split at h
    · cases h
    · obtain ⟨t, ht, rfl⟩ := Option.map_eq_some_iff.mp h
      have hi' := hi.flush ht
      refine { hi' with
        empty := fun hn => ?_
        closing := fun hc => ?_ }
      · obtain ⟨h₁, h₂, h₃, h₄⟩ := hi'.empty hn
        exact ⟨h₁, h₂, by simp [h₃], h₄⟩
      · obtain ⟨h₁, h₂, h₃⟩ := hi'.closing hc
        exact ⟨h₁, by simp [h₂], h₃⟩
  | loop => exact hi.loopStep h
  | close =>
    simp only [step] at h
    split at h
    · rename_i hm
      cases h
      exact { hi with
        stream := fun _ => hi.stream (by simp [hm.1])
        allocated := fun _ => hi.allocated (by simp [hm.1])
        callback := fun _ => hi.callback (by simp [hm.1])
        closing := fun _ => ⟨hm.2.1, hm.2.2, rfl⟩
        joined := fun h => nomatch h }
    · cases h
  | join =>
    simp only [step] at h
    split at h
    · rename_i hm
      cases h
      have hc := hi.closing (by simp [hm.1])
      exact { hi with
        stream := fun h => absurd rfl h
        offset := Nat.succ_pos _
        allocated := fun h => absurd rfl h
        empty := fun _ => ⟨rfl, hc.1, hc.2.1, by simp [closeJoined, hm.2]⟩
        callback := fun h => absurd rfl h
        closing := fun _ => hc
        joined := fun _ => hm.2 }
    · cases h

/-! ## The stream -/

/-- The dispatcher keeps the stream: what it has passed on and what is pending are the accepted
messages; every call of `gateway_d_msg_add` that ended was accepted or refused, and refused only
when the arena was full; no copy leaves the arena or `msg_buf`, and no step works on NULL. -/
structure Faithful (arena : Option Mem) (s : State) : Prop where
  stream : s.passed.flatten ++ s.pending = lines s.accepted
  calls : s.calls.Perm (s.accepted ++ s.dropped.map Prod.fst ++ s.adding)
  dropped : ∀ msg offset, (msg, offset) ∈ s.dropped →
    offset + msg.bytes.length + 1 ≥ MAX_TOTAL_SIZE ∨ arena = none
  offset : s.currentOffset < MAX_TOTAL_SIZE
  overrun : s.overrun = false
  pointers : s.adding ≠ [] ∨ 0 < s.flushing ∨ s.loop = .flush →
    s.arena ≠ none ∧ s.onDataCb ≠ none

/-- **The stream is faithful**, in every run from `gateway_dispatcher_init` up to the end of
`gateway_dispatcher_close`. -/
theorem stream_faithful (arena : Option Mem) (onDataFn : Nat) (ls : List Label) {s : State}
    (h : dispatcher.run ls (init arena onDataFn) = some s) (hm : s.main ≠ .closed) :
    Faithful arena s := by
  have hi : Inv arena s := (inv_keeps arena).run_all (inv_init arena onDataFn) h
  refine ⟨hi.stream hm, hi.calls, fun msg offset hd => hi.dropped (msg, offset) hd, hi.offset,
    hi.overrun, fun hp => ⟨fun ha => ?_, hi.callback hm⟩⟩
  obtain ⟨-, h₁, h₂, h₃⟩ := hi.empty ha
  rcases hp with hp | hp | hp
  · exact hp h₁
  · omega
  · exact h₃ hp

/-- Two one-byte messages, a flush between them. -/
def flushRun : List Label :=
  [.add ⟨[65], by decide, by decide⟩, .addLocked 0, .loop, .loop, .loop, .loop, .loop,
    .add ⟨[66], by decide, by decide⟩, .addLocked 0]

theorem stream_faithful_flushRun :
    ∃ s, dispatcher.run flushRun (init (some fun _ => 0) 0) = some s ∧ s.main ≠ .closed ∧
      s.passed = [[65, 10]] ∧ Faithful (some fun _ => 0) s :=
  ⟨_, rfl, by decide, by decide, stream_faithful _ 0 flushRun rfl (by decide)⟩

/-- Without an arena the first message is refused, although it would fit. -/
theorem refused_without_arena :
    ∃ s, dispatcher.run [.add ⟨[65], by decide, by decide⟩] (init none 0) = some s ∧
      s.main ≠ .closed ∧
      ¬ ∀ msg offset, (msg, offset) ∈ s.dropped →
        offset + msg.bytes.length + 1 ≥ MAX_TOTAL_SIZE :=
  ⟨_, rfl, by decide, fun h => absurd (h ⟨[65], by decide, by decide⟩ 0 (by decide)) (by decide)⟩

/-! ## Closing -/

/-- The loop has yet to look at `current_offset`, or it has seen data and not flushed yet. -/
def LoopPc.flushes : LoopPc → Bool
  | sleep | check | looked true | flush => true
  | test | looked false | exited => false

/-- What is in the arena will be passed on before the loop ends. -/
def State.Delivers (s : State) : Prop := s.currentOffset = 0 ∨ s.loop.flushes = true

/-- Every accepted message was passed to the callback. -/
def State.AllPassed (s : State) : Prop := s.passed.flatten = lines s.accepted

section Closing

variable {arena : Option Mem} {s s' : State}

/-- Messages are pending exactly while there is something in the arena. -/
theorem Inv.allPassed_iff (hi : Inv arena s) (hm : s.main ≠ .closed) :
    s.AllPassed ↔ s.currentOffset = 0 := by
  have hlen : s.pending.length = s.currentOffset := by
    cases ha : s.arena with
    | none => simp [State.pending, ha, (hi.empty ha).1]
    | some a => simp [State.pending, ha, Mem.read]
  unfold State.AllPassed
  rw [← hi.stream hm, List.self_eq_append_right, ← List.length_eq_zero_iff, hlen]

/-- With `dispatcher_running` cleared, a step of the loop does not change what will be passed on. -/
theorem loopStep_delivers (hi : Inv arena s) (hr : s.dispatcherRunning = false)
    (h : loopStep s = some s') : s'.main = s.main ∧ (s'.Delivers ↔ s.Delivers) := by
  unfold loopStep at h
  cases hl : s.loop with
  | test | sleep =>
    simp only [hl, hr, Option.some.injEq] at h
    subst h
    simp [State.Delivers, LoopPc.flushes, hl]
  | check =>
    simp only [hl, Option.some.injEq] at h
    subst h
    refine ⟨rfl, iff_of_true ?_ (by simp [State.Delivers, LoopPc.flushes, hl])⟩
    by_cases h0 : s.currentOffset = 0
    · exact .inl h0
    · right
      simp [LoopPc.flushes, Nat.pos_of_ne_zero h0]
  | looked hasData =>
    simp only [hl, Option.some.injEq] at h
    subst h
    refine ⟨rfl, ?_⟩
    by_cases h0 : s.currentOffset = 0
    · simp [State.Delivers, h0]
    · have ha : s.arena.isSome = true := by
        rw [Option.isSome_iff_ne_none]
        exact fun ha => h0 (hi.empty ha).1
      cases hasData <;> simp [State.Delivers, LoopPc.flushes, State.flushTest, hl, h0, ha]
  | flush =>
    simp only [hl] at h
    obtain ⟨t, ht, rfl⟩ := Option.map_eq_some_iff.mp h
    obtain ⟨-, rfl⟩ := flushLocked_some ht
    exact ⟨rfl, iff_of_true (.inl rfl) (.inr (by rw [hl]; rfl))⟩
  | exited => simp [hl] at h

/-- While `gateway_dispatcher_close` waits for the loop, it is settled whether all messages will
have been passed on (`P`). -/
structure Settled (arena : Option Mem) (P : Prop) (s : State) : Prop where
  inv : Inv arena s
  joining : s.main = .joining → (s.Delivers ↔ P)
  closed : s.main = .closed → (s.AllPassed ↔ P)
  closing : s.main ≠ .running

theorem settled_keeps (arena : Option Mem) (P : Prop) :
    dispatcher.Keeps (fun _ _ => True) (Settled arena P) := by
  intro s l s' hs _ h
  have hi' := inv_keeps arena s l s' hs.inv trivial h
  obtain ⟨hadd, hflush, hrun⟩ := hs.inv.closing hs.closing
  replace h : step l s = some s' := h
  cases l with
  | add msg => simp [step, hs.closing] at h
  | addLocked i => simp [step, hadd] at h
  | flush => simp [step, hs.closing] at h
  | flushLocked => simp [step, hflush] at h
  | close => simp [step, hs.closing] at h
  | loop =>
    obtain ⟨hm, hd⟩ := loopStep_delivers hs.inv hrun h
    refine ⟨hi', fun hj => ?_, fun hc => ?_, hm ▸ hs.closing⟩
    · rw [hd]
      exact hs.joining (hm ▸ hj)
    · -- After the join the loop has no step.
      simp [step, loopStep, hs.inv.joined (hm ▸ hc)] at h
  | join =>
    simp only [step] at h
    split at h
    · rename_i hj
      cases h
      refine ⟨hi', fun hc => by simp [closeJoined] at hc, fun _ => ?_, by simp [closeJoined]⟩
      have hd := hs.joining hj.1
      simp only [State.Delivers, hj.2, LoopPc.flushes, Bool.false_eq_true, or_false] at hd
      rw [← hd, ← hs.inv.allPassed_iff (by simp [hj.1])]
      rfl
    · cases h

end Closing

/-- **Closing.** In every run with a call of `gateway_dispatcher_close` that has returned, every
accepted message was passed to the callback if and only if, when the call cleared
`dispatcher_running`, the arena was empty or the loop was on its way to flush it. -/
theorem closing_iff (arena : Option Mem) (onDataFn : Nat) (ls ks : List Label) {s s' : State}
    (h : dispatcher.run ls (init arena onDataFn) = some s)
    (hc : dispatcher.run (.close :: ks) s = some s') (hm : s'.main = .closed) :
    s'.AllPassed ↔ s.Delivers := by
  have hi : Inv arena s := (inv_keeps arena).run_all (inv_init arena onDataFn) h
  obtain ⟨t, ht, hr⟩ := Machine.run_cons_some.mp hc
  have hi' : Inv arena t := inv_keeps arena s _ t hi trivial ht
  have hst : Settled arena s.Delivers t := by
    replace ht : step .close s = some t := ht
    simp only [step] at ht
    split at ht
    · cases ht
      exact ⟨hi', fun _ => Iff.rfl, nofun, nofun⟩
    · cases ht
  exact ((settled_keeps arena s.Delivers).run_all hst hr).closed hm

/-- The loop is asleep when the message is accepted and `gateway_dispatcher_close` is called: it
wakes up, flushes and ends. -/
def closeAsleep : List Label := [.loop, .add ⟨[65], by decide, by decide⟩, .addLocked 0]

theorem closing_iff_asleep :
    ∃ s s', dispatcher.run closeAsleep (init (some fun _ => 0) 0) = some s ∧
      dispatcher.run (.close :: List.replicate 5 .loop ++ [.join]) s = some s' ∧
      s'.main = .closed ∧ (s'.AllPassed ↔ s.Delivers) :=
  ⟨_, _, rfl, rfl, rfl, closing_iff (some fun _ => 0) 0 closeAsleep
    (List.replicate 5 .loop ++ [.join]) rfl rfl rfl⟩

/-- **A message lost.** The message is accepted after the loop has found the arena empty and before
it tests `dispatcher_running` again. -/
theorem accepted_after_look :
    ∃ s s', dispatcher.run [.loop, .loop, .loop, .loop, .add ⟨[65], by decide, by decide⟩,
        .addLocked 0] (init (some fun _ => 0) 0) = some s ∧
      dispatcher.run [.close, .loop, .join] s = some s' ∧ s'.main = .closed ∧
      s'.accepted = [⟨[65], by decide, by decide⟩] ∧ s'.passed = [] ∧ ¬ s'.AllPassed :=
  ⟨_, _, rfl, rfl, rfl, rfl, rfl, by unfold State.AllPassed; decide⟩

end Dispatcher
end CoreCDTL
