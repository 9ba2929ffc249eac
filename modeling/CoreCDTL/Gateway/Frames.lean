import CoreCDTL.Gateway.Stream
import CoreCDTL.Lib.Framing

/-!
# The dispatcher: what the gateway library reads

`gateway_msg_send` writes the name of its API and one line of text, closed by an empty line: the
library can tell the messages apart if no text holds a newline.

* `Frame`: the arguments of `gateway_msg_send`. `Frame.message` is what goes to the arena, cut after
  1023 bytes.
* `frames`: the format, with its reader `readFrame`; the headers of two APIs are told apart
  (`header_inj`).
* `Grouped`: each buffer that the library gets is made of whole messages (`grouped_keeps`).
* `frames_iff`: the library reads what was sent, buffer by buffer, if and only if every text is one
  line and fits.
-/

namespace CoreCDTL
namespace Dispatcher

/-! ## Frames -/

/-- The arguments of `gateway_msg_send`. -/
structure Frame where
  api : ApiType
  linestr : CStr
  deriving DecidableEq, Repr

/-- A `char` as a byte. -/
def byte (c : Char) : UInt8 := UInt8.ofNat c.toNat

/-- What `gateway_msg_send` formats. -/
def Frame.text (f : Frame) : List Char :=
  "[on_data] [".toList ++ f.api.apiName ++ "]\n".toList ++ f.linestr ++ ['\n']

/-- What the frame says. -/
def Frame.content (f : Frame) : ApiType × List UInt8 := (f.api, f.linestr.map byte)

/-- What goes to the arena. -/
def Frame.message (f : Frame) : Msg := gatewayMsgSend f.api f.linestr

/-- The text is one line, and it fits `safe_buf`. -/
structure Frame.OneLine (f : Frame) : Prop where
  line : newline ∉ f.linestr.map byte
  noNul : nul ∉ f.linestr
  fits : f.text.length < 1024

/-! ## The format -/

/-- The header of an API. -/
def header (a : ApiType) : List UInt8 :=
  ("[on_data] [".toList ++ a.apiName ++ "]\n".toList).map byte

def ApiType.all : List ApiType := [eventBus, scheduler, hk, pm, crash, other]

theorem ApiType.mem_all (a : ApiType) : a ∈ ApiType.all := by
  cases a <;> decide

/-- No header begins with another one. -/
theorem header_inj {a b : ApiType} (h : header a <+: header b) : a = b := by
  cases a <;> cases b <;> first | rfl | exact absurd h (by decide)

/-- The API of a header, and what stands behind it. -/
def readHeader (s : List UInt8) : Option (ApiType × List UInt8) :=
  ApiType.all.findSome? fun a =>
    if (header a).isPrefixOf s then some (a, s.drop (header a).length) else none

/-- The reader: a header, a line, an empty line. -/
def readFrame (s : List UInt8) : Option ((ApiType × List UInt8) × List UInt8) :=
  (readHeader s).bind fun (a, t) =>
    match t.dropWhile (· ≠ newline) with
    | _ :: c :: rest => if c = newline then some ((a, t.takeWhile (· ≠ newline)), rest) else none
    | _ => none

theorem readHeader_header (a : ApiType) (t : List UInt8) :
    readHeader (header a ++ t) = some (a, t) := by
  have hself : (header a).isPrefixOf (header a ++ t) = true :=
    List.isPrefixOf_iff_prefix.mpr (List.prefix_append _ _)
  have hone : ∀ b, (if (header b).isPrefixOf (header a ++ t) then
      some (b, (header a ++ t).drop (header b).length) else none) =
      if b = a then some (a, t) else none := by
    intro b
    by_cases hb : b = a
    · subst hb
      rw [if_pos hself, if_pos rfl, List.drop_left]
    · rw [if_neg hb, if_neg fun hp => ?_]
      have hp := List.isPrefixOf_iff_prefix.mp hp
      rcases List.prefix_or_prefix_of_prefix hp (List.prefix_append (header a) t) with h | h
      · exact hb (header_inj h)
      · exact hb (header_inj h).symm
  unfold readHeader
  simp only [hone]
  cases a <;> rfl

theorem of_readHeader {s t : List UInt8} {a : ApiType} (h : readHeader s = some (a, t)) :
    s = header a ++ t := by
  obtain ⟨b, -, hb⟩ := List.exists_of_findSome?_eq_some h
  obtain ⟨hp, he⟩ := Option.ite_none_right_eq_some.mp hb
  cases he
  obtain ⟨u, rfl⟩ := List.isPrefixOf_iff_prefix.mp hp
  rw [List.drop_left]

/-- The format of the stream. -/
def frames : Framing UInt8 (ApiType × List UInt8) where
  encode f := header f.1 ++ (f.2 ++ [newline, newline])
  decode := readFrame
  Good f := newline ∉ f.2
  decode_encode := by
    rintro ⟨a, line⟩ rest hline
    have hall : ∀ x ∈ line, decide (x ≠ newline) = true :=
      fun x hx => decide_eq_true fun he => hline (he ▸ hx)
    have hstop : decide (newline ≠ newline) = false := by decide
    unfold readFrame
    rw [List.append_assoc, readHeader_header, Option.bind_some, List.append_assoc]
    simp only [List.cons_append, List.nil_append]
    rw [dropWhile_append_cons hall hstop, takeWhile_append_cons hall hstop]
    exact if_pos rfl
  of_decode := by
    rintro s ⟨a, line⟩ rest h
    obtain ⟨⟨b, t⟩, hh, h⟩ := Option.bind_eq_some_iff.mp h
    have hs := of_readHeader hh
    simp only at h
    split at h
    · rename_i d c r hdrop
      obtain ⟨hc, he⟩ := Option.ite_none_right_eq_some.mp h
      cases he
      have hd : d = newline := by
        have hhead := List.head?_dropWhile_not (· ≠ newline) t
        rw [hdrop] at hhead
        simpa using hhead
      have ht := (List.takeWhile_append_dropWhile (p := (· ≠ newline)) (l := t)).symm
      refine ⟨fun hm => ?_, ?_⟩
      · have := List.mem_takeWhile_imp hm
        simp at this
      · rw [hs, List.append_assoc, List.append_assoc]
        congr 1
        rw [hdrop, hd, hc] at ht
        simpa using ht
    · cases h
  encode_ne f h := by
    have := (List.append_eq_nil_iff.mp (List.append_eq_nil_iff.mp h).2).2
    cases this

/-! ## Messages -/

theorem text_bytes (f : Frame) : f.text.map byte ++ [newline] = frames.encode f.content := by
  have hencode : frames.encode f.content =
      header f.api ++ (f.linestr.map byte ++ [newline, newline]) := rfl
  rw [hencode]
  unfold Frame.text header
  rw [List.map_append, List.map_append, List.append_assoc, List.append_assoc]
  rfl

theorem message_bytes (f : Frame) : f.message.bytes = (snprintf 1024 f.text).map byte := rfl

/-- A message is never longer than what it should be. -/
theorem message_length_le (f : Frame) :
    (f.message.bytes ++ [newline]).length ≤ (frames.encode f.content).length := by
  have hle := snprintf_length_le 1024 f.text
  rw [← text_bytes, message_bytes]
  simp only [List.length_append, List.length_map]
  omega

theorem nul_not_mem_text {f : Frame} (h : nul ∉ f.linestr) : nul ∉ f.text := by
  have hname : nul ∉ f.api.apiName := by
    cases f.api <;> decide
  have hopen : nul ∉ "[on_data] [".toList := by decide
  have hclose : nul ∉ "]\n".toList := by decide
  have hend : nul ∉ ['\n'] := by decide
  unfold Frame.text
  simp only [List.mem_append, not_or]
  exact ⟨⟨⟨⟨hopen, hname⟩, hclose⟩, h⟩, hend⟩

/-- A message is what it should be if nothing is cut. -/
theorem message_eq_iff (f : Frame) :
    f.message.bytes ++ [newline] = frames.encode f.content ↔
      nul ∉ f.linestr ∧ f.text.length < 1024 := by
  constructor
  · intro h
    have hlen := congrArg List.length h
    rw [← text_bytes, message_bytes, List.length_append, List.length_append, List.length_map,
      List.length_map] at hlen
    have hprefix : snprintf 1024 f.text <+: f.text :=
      (List.takeWhile_prefix _).trans (List.take_prefix _ _)
    have heq : snprintf 1024 f.text = f.text := hprefix.eq_of_length (by omega)
    refine ⟨fun hn => ?_, ?_⟩
    · have hmem : nul ∈ f.text := by
        unfold Frame.text
        exact List.mem_append_left _ (List.mem_append_right _ hn)
      rw [← heq] at hmem
      exact nul_not_mem_cstr _ hmem
    · rw [← heq]
      exact snprintf_length_lt (by decide) f.text
  · rintro ⟨hn, hlt⟩
    rw [message_bytes, snprintf_eq_self (nul_not_mem_text hn) hlt, text_bytes]

/-- **A buffer is understood** if and only if each of its texts is one line and fits. -/
theorem readFrames_iff (fs : List Frame) :
    frames.decodeAll (lines (fs.map Frame.message)) = some (fs.map Frame.content) ↔
      ∀ f ∈ fs, f.OneLine := by
  have hsent : lines (fs.map Frame.message) = fs.flatMap fun f => f.message.bytes ++ [newline] := by
    rw [lines, List.flatMap_map]
  rw [hsent, Framing.decodeAll_sent_iff message_length_le]
  refine forall₂_congr fun f _ => ?_
  rw [message_eq_iff]
  exact ⟨fun h => ⟨h.1, h.2.1, h.2.2⟩, fun h => ⟨h.1, h.2, h.3⟩⟩

/-! ## Buffers -/

/-- Each buffer that was passed on is made of whole messages, and so is what is pending. -/
structure Grouped (s : State) (groups : List (List Msg)) (rest : List Msg) : Prop where
  accepted : s.accepted = groups.flatten ++ rest
  passed : s.passed = groups.map lines
  pending : s.main ≠ .closed → s.pending = lines rest

theorem grouped_init (arena : Option Mem) (onDataFn : Nat) :
    Grouped (init arena onDataFn) [] [] where
  accepted := rfl
  passed := rfl
  pending := fun _ => by cases arena <;> rfl

section Steps

variable {arena : Option Mem} {s s' : State} {groups : List (List Msg)} {rest : List Msg}

/-- A flush passes on the pending messages. -/
theorem Grouped.flush (hg : Grouped s groups rest) (hm : s.main ≠ .closed)
    (h : flushLocked s = some s') : Grouped s' (groups ++ [rest]) [] := by
  obtain ⟨ha, rfl⟩ := flushLocked_some h
  refine ⟨?_, ?_, fun _ => ?_⟩
  · simpa using hg.accepted
  · show s.passed ++ [s.pending] = (groups ++ [rest]).map lines
    rw [hg.passed, hg.pending hm, List.map_append]
    rfl
  · cases hs : s.arena with
    | none => exact absurd hs ha
    | some a => simp [State.pending, Mem.read, lines]

/-- A message is copied with its newline, or refused. -/
theorem Grouped.addLocked (hi : Inv arena s) (hg : Grouped s groups rest) {i : Nat} {msg : Msg}
    (h : s.adding[i]? = some msg) :
    ∃ rest', Grouped { addLocked msg s with adding := s.adding.eraseIdx i } groups rest' := by
  have ha : s.arena ≠ none := fun ha => by
    rw [(hi.empty ha).2.1] at h
    cases h
  rcases addLocked_cases hi.offset msg with ⟨-, he⟩ | ⟨-, he⟩
  · rw [he]
    exact ⟨rest, hg.accepted, hg.passed, hg.pending⟩
  · rw [he]
    refine ⟨rest ++ [msg], ?_, hg.passed, fun hm => ?_⟩
    · show s.accepted ++ [msg] = _
      rw [hg.accepted, List.append_assoc]
    · show ((s.copy msg.bytes).copy [newline]).pending = _
      rw [pending_copy (copy_arena ha msg.bytes), pending_copy ha, lines_append, hg.pending hm,
        List.append_assoc]

theorem Grouped.step (hi : Inv arena s) (hg : Grouped s groups rest) {l : Label}
    (h : dispatcher.step l s = some s') : ∃ groups' rest', Grouped s' groups' rest' := by
  replace h : Dispatcher.step l s = some s' := h
  cases l with
  | add msg =>
    obtain ⟨-, he⟩ := Option.ite_none_right_eq_some.mp h
    cases he
    rcases addTest_cases s msg with ⟨-, he⟩ | ⟨-, he⟩ <;> rw [he] <;>
      exact ⟨groups, rest, hg.accepted, hg.passed, hg.pending⟩
  | addLocked i =>
    obtain ⟨msg, hmsg, rfl⟩ := Option.map_eq_some_iff.mp h
    exact ⟨groups, hg.addLocked hi hmsg⟩
  | flush =>
    obtain ⟨-, he⟩ := Option.ite_none_right_eq_some.mp h
    cases he
    exact ⟨groups, rest, hg.accepted, hg.passed, hg.pending⟩
  | flushLocked =>
    obtain ⟨hf, h⟩ := Option.ite_none_left_eq_some.mp h
    obtain ⟨t, ht, rfl⟩ := Option.map_eq_some_iff.mp h
    have hm : s.main ≠ .closed := fun hc => by
      have hleft : s.main ≠ .running := fun e => by
        rw [hc] at e
        cases e
      exact hf (hi.closing hleft).2.1
    have hgt := hg.flush hm ht
    exact ⟨_, _, hgt.accepted, hgt.passed, hgt.pending⟩
  | loop =>
    simp only [Dispatcher.step, loopStep] at h
    split at h
    · cases h
      exact ⟨groups, rest, hg.accepted, hg.passed, hg.pending⟩
    · cases h
      exact ⟨groups, rest, hg.accepted, hg.passed, hg.pending⟩
    · cases h
      exact ⟨groups, rest, hg.accepted, hg.passed, hg.pending⟩
    · cases h
      exact ⟨groups, rest, hg.accepted, hg.passed, hg.pending⟩
    · rename_i hloop
      obtain ⟨t, ht, rfl⟩ := Option.map_eq_some_iff.mp h
      have hm : s.main ≠ .closed := fun hc => by
        have hexit := hi.joined hc
        rw [hloop] at hexit
        cases hexit
      have hgt := hg.flush hm ht
      exact ⟨_, _, hgt.accepted, hgt.passed, hgt.pending⟩
    · cases h
  | close =>
    obtain ⟨hrun, he⟩ := Option.ite_none_right_eq_some.mp h
    cases he
    have hm : s.main ≠ .closed := fun hc => by
      rw [hrun.1] at hc
      cases hc
    exact ⟨groups, rest, hg.accepted, hg.passed, fun _ => hg.pending hm⟩
  | join =>
    obtain ⟨-, he⟩ := Option.ite_none_right_eq_some.mp h
    cases he
    exact ⟨groups, rest, hg.accepted, hg.passed, fun hc => absurd rfl hc⟩

end Steps

theorem grouped_keeps (arena : Option Mem) :
    dispatcher.Keeps (fun _ _ => True)
      (fun s => Inv arena s ∧ ∃ groups rest, Grouped s groups rest) := by
  rintro s l s' ⟨hi, groups, rest, hg⟩ - h
  exact ⟨inv_keeps arena s l s' hi trivial h, hg.step hi h⟩

/-! ## Result -/

/-- A list of messages of frames is cut where the frames can be cut. -/
theorem map_eq_flatten {α β : Type} {g : α → β} {xs : List α} {yss : List (List β)} {ys : List β}
    (h : xs.map g = yss.flatten ++ ys) :
    ∃ xss : List (List α), xss.flatten <+: xs ∧ yss = xss.map (List.map g) := by
  induction yss generalizing xs with
  | nil => exact ⟨[], List.nil_prefix, rfl⟩
  | cons zs yss ih =>
    rw [List.flatten_cons, List.append_assoc] at h
    obtain ⟨us, vs, rfl, hu, hv⟩ := List.map_eq_append_iff.mp h
    obtain ⟨xss, hp, rfl⟩ := ih hv
    refine ⟨us :: xss, ?_, by rw [List.map_cons, hu]⟩
    rw [List.flatten_cons]
    exact (List.prefix_append_right_inj us).mpr hp

/-- **What the gateway library reads.** In every run, each buffer passed to `on_data` holds whole
messages, in the order in which they were accepted. Its reader gets the API and the text of each of
them if and only if every text is one line, without NUL, and fits `safe_buf`. -/
theorem frames_iff (arena : Option Mem) (onDataFn : Nat) (ls : List Label) (s : State)
    (h : dispatcher.run ls (init arena onDataFn) = some s) (fs : List Frame)
    (hfs : s.accepted = fs.map Frame.message) :
    ∃ groups : List (List Frame), groups.flatten <+: fs ∧
      s.passed = groups.map (fun g => lines (g.map Frame.message)) ∧
      (s.passed.map frames.decodeAll = groups.map (fun g => some (g.map Frame.content)) ↔
        ∀ f ∈ groups.flatten, f.OneLine) := by
  obtain ⟨-, msgs, rest, hg⟩ := (grouped_keeps arena).run_all
    ⟨inv_init arena onDataFn, [], [], grouped_init arena onDataFn⟩ h
  obtain ⟨groups, hp, rfl⟩ := map_eq_flatten (hfs.symm.trans hg.accepted)
  have hpassed : s.passed = groups.map (fun g => lines (g.map Frame.message)) := by
    rw [hg.passed, List.map_map]
    rfl
  refine ⟨groups, hp, hpassed, ?_⟩
  rw [hpassed, List.map_map, List.map_inj_left]
  simp only [Function.comp_apply, readFrames_iff, List.mem_flatten]
  exact ⟨fun hall f ⟨g, hgm, hf⟩ => hall g hgm f hf, fun hall g hgm f hf => hall f ⟨g, hgm, hf⟩⟩

/-- A cancellation, as `scheduler_cancel` reports it. -/
def cancelFrame : Frame := ⟨.scheduler, "[cancel] 1 2".toList⟩

theorem cancelFrame_oneLine : cancelFrame.OneLine := ⟨by decide, by decide, by decide⟩

/-- The cancellation, and a flush. -/
def frameRun : List Label :=
  [.add cancelFrame.message, .addLocked 0, .loop, .loop, .loop, .loop, .loop]

/-- The library reads the cancellation. -/
theorem frames_iff_frameRun :
    ∃ s, dispatcher.run frameRun (init (some fun _ => 0) 0) = some s ∧ s.passed.length = 1 ∧
      ∃ groups : List (List Frame), groups.flatten <+: [cancelFrame] ∧
        s.passed.map frames.decodeAll = groups.map fun g => some (g.map Frame.content) := by
  obtain ⟨s, hs⟩ : ∃ s, dispatcher.run frameRun (init (some fun _ => 0) 0) = some s := ⟨_, rfl⟩
  have hacc : s.accepted = [cancelFrame].map Frame.message := by cases hs; rfl
  have hlen : s.passed.length = 1 := by cases hs; rfl
  obtain ⟨groups, hp, -, hiff⟩ := frames_iff _ 0 frameRun s hs [cancelFrame] hacc
  refine ⟨s, hs, hlen, groups, hp, hiff.mpr fun f hf => ?_⟩
  rw [List.mem_singleton.mp (hp.subset hf)]
  exact cancelFrame_oneLine

end Dispatcher
end CoreCDTL
