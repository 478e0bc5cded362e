import NativeMessaging.Host.Outbound
import NativeMessaging.Proofs.Frame.Stream

/-!
# Host — a sink that takes every byte

A sink is *open* when it never fails, never fills up, never takes nothing and lets itself be flushed
(`Sink.IsOpen`).  It may take the bytes of a call in pieces of any size, and may be interrupted.

* `Sink.exists_writeAll`: an open sink takes all bytes, in order, and stays open.
* `Sink.exists_writeFrames`: it takes the frames of all texts, if none of these is too long for a
  header; and it stays open where one is (`Sink.exists_writeFrames_open`).
* `Outbound.exists_write`, `Outbound.exists_write_open`: so does the way out with such a sink.
-/

namespace NativeMessaging.Host

namespace Sink

/-- The sink takes every byte sooner or later, and lets itself be flushed. -/
structure IsOpen (sink : Sink) : Prop where
  plan : ∀ reply ∈ sink.plan, reply = .steady ∨ reply = .interrupted ∨ ∃ n, reply = .upTo (n + 1)
  perCall : sink.perCall ≠ some 0
  room : sink.room = none
  refusal : sink.refusal = none
  flushPlan : ∀ refusal ∈ sink.flushPlan, refusal = none := by exact List.forall_mem_nil _

theorem isOpen_unlimited : unlimited.IsOpen :=
  ⟨List.forall_mem_nil _, nofun, rfl, rfl, List.forall_mem_nil _⟩

theorem IsOpen.taking {sink : Sink} (h : sink.IsOpen) (bytes : List UInt8) :
    (sink.taking bytes).IsOpen where
  plan reply hreply := h.plan reply (List.mem_of_mem_tail hreply)
  perCall := h.perCall
  room := by rw [Sink.taking, h.room]; rfl
  refusal := h.refusal
  flushPlan := h.flushPlan

/-- An open sink lets itself be flushed, and stays open. -/
theorem IsOpen.flush {sink : Sink} (h : sink.IsOpen) :
    ∃ sink', sink'.IsOpen ∧ sink'.written = sink.written ∧ sink.flush = (.ok (), sink') := by
  refine ⟨{ sink with flushPlan := sink.flushPlan.tail }, ?_, rfl, ?_⟩
  · exact ⟨h.plan, h.perCall, h.room, h.refusal,
      fun refusal hmem => h.flushPlan refusal (List.mem_of_mem_tail hmem)⟩
  · have hanswer : sink.flushPlan.head?.getD sink.refusal = none := by
      cases hplan : sink.flushPlan with
      | nil => exact h.refusal
      | cons refusal later => exact h.flushPlan refusal (hplan ▸ List.mem_cons_self ..)
    rw [Sink.flush, hanswer]

/-- An open sink in its steady way takes a byte of a call that has one. -/
theorem IsOpen.steadily {sink : Sink} (h : sink.IsOpen) (size : Nat) :
    ∃ n, sink.steadily (size + 1) = .ok (n + 1) := by
  rw [Sink.steadily, h.room]
  cases hper : sink.perCall with
  | none => exact ⟨size, rfl⟩
  | some n =>
      cases n with
      | zero => exact absurd hper h.perCall
      | succ n => exact ⟨min n size, congrArg Except.ok (Nat.add_min_add_right n size 1)⟩

/-- A call is interrupted, which uses up an entry of the plan, or takes a byte. -/
theorem IsOpen.reply {sink : Sink} (h : sink.IsOpen) (size : Nat) :
    (sink.reply (size + 1) = .interrupted ∧ sink.plan ≠ []) ∨
      ∃ n, sink.reply (size + 1) = .upTo (n + 1) := by
  obtain ⟨n, hsteady⟩ := h.steadily size
  rw [Sink.reply]
  cases hplan : sink.plan with
  | nil => exact .inr ⟨n, by simp only [List.head?_nil, hsteady]⟩
  | cons reply plan =>
      rcases h.plan reply (hplan ▸ List.mem_cons_self ..) with rfl | rfl | ⟨m, rfl⟩
      · exact .inr ⟨n, by simp only [List.head?_cons, hsteady]⟩
      · exact .inl ⟨rfl, List.cons_ne_nil _ _⟩
      · exact .inr ⟨m, rfl⟩

theorem exists_writeRounds {rounds : Nat} {sink : Sink} (h : sink.IsOpen) {bytes : List UInt8}
    (hrounds : sink.plan.length + bytes.length ≤ rounds) :
    ∃ sink', sink'.IsOpen ∧ sink'.written = bytes.reverse ++ sink.written ∧
      writeRounds rounds sink bytes = (.ok (.ok ()), sink') := by
  -- a round uses up an entry of the plan or a byte, so the rounds never run out
  induction rounds generalizing sink bytes with
  | zero =>
      cases bytes with
      | nil => exact ⟨sink, h, rfl, rfl⟩
      | cons b bs => simp at hrounds
  | succ rounds ih =>
      cases bytes with
      | nil => exact ⟨sink, h, rfl, rfl⟩
      | cons b bs =>
          have htail (taken : List UInt8) : (sink.taking taken).plan = sink.plan.tail := rfl
          rw [List.length_cons] at hrounds
          rcases h.reply bs.length with ⟨hreply, hplan⟩ | ⟨n, hreply⟩
          · have hlen := List.length_pos_iff.mpr hplan
            have hround : (sink.taking []).plan.length + (b :: bs).length ≤ rounds := by
              rw [htail, List.length_tail, List.length_cons]
              omega
            obtain ⟨sink', hopen, hwritten, hrun⟩ := ih (h.taking []) hround
            refine ⟨sink', hopen, hwritten, ?_⟩
            rw [writeRounds, List.length_cons, hreply]
            exact hrun
          · have hround : (sink.taking ((b :: bs).take (n + 1))).plan.length +
                ((b :: bs).drop (n + 1)).length ≤ rounds := by
              rw [htail, List.length_tail, List.length_drop, List.length_cons]
              omega
            obtain ⟨sink', hopen, hwritten, hrun⟩ := ih (h.taking ((b :: bs).take (n + 1))) hround
            refine ⟨sink', hopen, hwritten.trans ?_, ?_⟩
            · -- what this call took stands before what the later ones take
              have hnow : (sink.taking ((b :: bs).take (n + 1))).written =
                  ((b :: bs).take (n + 1)).reverse ++ sink.written := rfl
              rw [hnow, ← List.append_assoc, ← List.reverse_append, List.take_append_drop]
            · rw [writeRounds, List.length_cons, hreply]
              exact hrun

/-- **All bytes are taken, in order.** -/
theorem exists_writeAll {sink : Sink} (h : sink.IsOpen) (bytes : List UInt8) :
    ∃ sink', sink'.IsOpen ∧ sink'.written = bytes.reverse ++ sink.written ∧
      sink.writeAll bytes = (.ok (.ok ()), sink') :=
  exists_writeRounds h (Nat.le_refl _)

/-- **The frames of all texts are taken, in order.** -/
theorem exists_writeFrames {sink : Sink} (h : sink.IsOpen) {texts : List String}
    (hsize : ∀ text ∈ texts, text.utf8ByteSize < UInt32.size) :
    ∃ sink', sink'.IsOpen ∧ sink'.written = (Frame.stream texts).reverse ++ sink.written ∧
      sink.writeFrames texts = (.ok (.ok ()), sink') := by
  induction texts generalizing sink with
  | nil =>
      obtain ⟨sink', hopen, hwritten, hflush⟩ := h.flush
      refine ⟨sink', hopen, hwritten, ?_⟩
      rw [writeFrames, hflush]
      rfl
  | cons text texts ih =>
      obtain ⟨after, hafter, hwritten, hall⟩ := exists_writeAll h (Frame.bytes text)
      obtain ⟨sink', hopen, hrest, hframes⟩ :=
        ih hafter fun t ht => hsize t (List.mem_cons_of_mem _ ht)
      refine ⟨sink', hopen, ?_, ?_⟩
      · rw [hrest, hwritten, Frame.stream, Frame.stream, List.flatMap_cons, List.reverse_append,
          List.append_assoc]
      · rw [writeFrames, Frame.encode_of_lt (hsize text (List.mem_cons_self ..))]
        dsimp only
        rw [hall]
        exact hframes

/-- Where writing bytes always returns, and that and a flush leave the sink as it should be, so does
writing texts. -/
theorem exists_writeFrames_of {holds : Sink → Prop}
    (hall : ∀ sink, holds sink → ∀ bytes,
      ∃ result sink', holds sink' ∧ sink.writeAll bytes = (.ok result, sink'))
    (hflush : ∀ sink, holds sink → holds sink.flush.2)
    {sink : Sink} (h : holds sink) (texts : List String) :
    ∃ result sink', holds sink' ∧ sink.writeFrames texts = (.ok result, sink') := by
  induction texts generalizing sink with
  | nil => exact ⟨_, sink.flush.2, hflush sink h, rfl⟩
  | cons text texts ih =>
      rw [writeFrames]
      cases Frame.encode text with
      | error e => exact ⟨_, sink, h, rfl⟩
      | ok frame =>
          obtain ⟨written, after, hafter, hwrite⟩ := hall sink h frame
          dsimp only
          rw [hwrite]
          cases written with
          | error reason => exact ⟨_, after, hafter, rfl⟩
          | ok _ => exact ih hafter

/-- Writing texts always returns, and leaves the sink open. -/
theorem exists_writeFrames_open {sink : Sink} (h : sink.IsOpen) (texts : List String) :
    ∃ result sink', sink'.IsOpen ∧ sink.writeFrames texts = (.ok result, sink') := by
  refine exists_writeFrames_of (fun sink h bytes => ?_) (fun sink h => ?_) h texts
  · obtain ⟨sink', hopen, -, hall⟩ := exists_writeAll h bytes
    exact ⟨_, sink', hopen, hall⟩
  · obtain ⟨sink', hopen, -, hflush⟩ := h.flush
    rwa [hflush]

end Sink

namespace Outbound

variable {outbound : Outbound}

/-- Texts that a header can size are written, and the chunker stays. -/
theorem exists_write (h : outbound.sink.IsOpen) {texts : List String}
    (hsize : ∀ text ∈ texts, text.utf8ByteSize < UInt32.size) :
    ∃ outbound', outbound'.sink.IsOpen ∧ outbound'.chunker = outbound.chunker ∧
      outbound'.sink.written = (Frame.stream texts).reverse ++ outbound.sink.written ∧
      outbound.write texts = (.ok (.ok ()), outbound') := by
  obtain ⟨sink', hopen, hwritten, hall⟩ := Sink.exists_writeFrames h hsize
  refine ⟨{ outbound with sink := sink' }, hopen, rfl, hwritten, ?_⟩
  rw [write, hall]

/-- What writing texts does to the sink, it does to the sink of the way out. -/
theorem exists_write_of {holds : Sink → Prop} {texts : List String}
    (h : ∃ result sink', holds sink' ∧ outbound.sink.writeFrames texts = (.ok result, sink')) :
    ∃ result outbound', holds outbound'.sink ∧
      outbound.write texts = (.ok result, outbound') := by
  obtain ⟨result, sink', hsink, hframes⟩ := h
  refine ⟨result, { outbound with sink := sink' }, hsink, ?_⟩
  rw [write, hframes]

/-- Writing texts always returns, and leaves the sink open. -/
theorem exists_write_open (h : outbound.sink.IsOpen) (texts : List String) :
    ∃ result outbound', outbound'.sink.IsOpen ∧
      outbound.write texts = (.ok result, outbound') :=
  exists_write_of (Sink.exists_writeFrames_open h texts)

end Outbound

end NativeMessaging.Host
