import NativeMessaging.Proofs.Host.Calm
import NativeMessaging.Proofs.Message.Size

/-!
# Host — a send writes all frames, or a beginning of them

A sink is called for bytes again and again.  A call (`Call`) at which it fails, or takes nothing,
is the last one (`Call.stop?`).  `Sink.Answers` says what a sink becomes by its calls: each uses up
an entry of its plan, which may be of any length, and behind that it goes on in its steady way.

* `Sink.Writes`: bytes are offered in order, up to the first call that stops the writing.
* `Sink.exists_writes`, `Sink.exists_writes_stream`: so a sink that does not panic is offered bytes,
  and the frames of texts.
* `Writes.taken_prefix`, `Writes.eq_ok_iff`: what it takes is a beginning of the bytes, and is all
  of them where no call stops the writing.
* `Outbound.send_delivers`: what a send writes, when it succeeds, and how it fails.
-/

namespace NativeMessaging.Host

/-- A call of a sink: the bytes that it is offered, and its reply. -/
structure Call where
  offered : List UInt8
  reply : WriteReply

namespace Call

/-- The bytes that the sink takes. -/
def taken (call : Call) : List UInt8 :=
  match call.reply with
  | .upTo n => call.offered.take n
  | _       => []

/-- Why the call stops the writing, if it does. -/
def stop? (call : Call) : Option String :=
  match call.reply with
  | .failed reason => some reason
  | .upTo 0        => some Sink.nothingTaken
  | _              => none

/-- The bytes that the sink takes in calls. -/
def allTaken (calls : List Call) : List UInt8 := calls.flatMap taken

/-- Nothing is taken at a call that stops the writing. -/
theorem taken_of_stop {call : Call} {reason : String} (h : call.stop? = some reason) :
    call.taken = [] := by
  obtain ⟨offered, reply⟩ := call
  cases reply with
  | upTo n =>
      cases n with
      | zero => exact List.take_zero (l := offered)
      | succ n => cases h
  | _ => rfl

end Call

namespace Sink

/-- A call offers a sink some bytes, and has its reply. -/
def Replies (sink : Sink) (call : Call) : Prop :=
  call.offered ≠ [] ∧ sink.reply call.offered.length = call.reply

/-- What a sink becomes by calls. -/
inductive Answers : Sink → List Call → Sink → Prop where
  | nil (sink : Sink) : Answers sink [] sink
  | cons {sink sink' : Sink} {call : Call} {calls : List Call} :
      sink.Replies call → Answers (sink.taking call.taken) calls sink' →
        Answers sink (call :: calls) sink'

/-- Bytes are offered to a sink in order, up to the first call that stops the writing. -/
inductive Writes : Sink → List UInt8 → List Call → Except String Unit → Sink → Prop where
  | done (sink : Sink) : Writes sink [] [] (.ok ()) sink
  | stopped {sink : Sink} {bytes : List UInt8} {call : Call} {reason : String} :
      sink.Replies call → call.offered <+: bytes → call.stop? = some reason →
        Writes sink bytes [call] (.error reason) (sink.taking call.taken)
  | goesOn {sink sink' : Sink} {bytes left : List UInt8} {call : Call} {calls : List Call}
      {result : Except String Unit} :
      sink.Replies call → call.offered <+: bytes → call.stop? = none →
        bytes = call.taken ++ left → Writes (sink.taking call.taken) left calls result sink' →
        Writes sink bytes (call :: calls) result sink'

/-! ### What a sink becomes by its calls -/

namespace Answers

variable {sink sink' : Sink} {calls : List Call}

theorem written (h : sink.Answers calls sink') :
    sink'.written = (Call.allTaken calls).reverse ++ sink.written := by
  induction h with
  | nil _ => rfl
  | cons _ _ ih =>
      rw [ih, Call.allTaken, Call.allTaken, List.flatMap_cons, List.reverse_append,
        List.append_assoc]
      rfl

/-- Each call uses up an entry of the plan. -/
theorem plan (h : sink.Answers calls sink') : sink'.plan = sink.plan.drop calls.length := by
  induction h with
  | nil _ => rfl
  | cons _ _ ih =>
      rw [ih, List.length_cons, ← List.drop_tail]
      rfl

/-- Calls do not change whether the sink lets itself be flushed. -/
theorem flush (h : sink.Answers calls sink') : sink'.flush.1 = sink.flush.1 := by
  induction h with
  | nil _ => rfl
  | cons _ _ ih => exact ih

end Answers

/-! ### Bytes that are offered in order -/

namespace Writes

variable {sink between sink' : Sink} {bytes later : List UInt8} {calls calls' : List Call}
  {result : Except String Unit} {reason : String}

theorem answers (h : Writes sink bytes calls result sink') : sink.Answers calls sink' := by
  induction h with
  | done sink => exact .nil sink
  | stopped hreply _ _ => exact .cons hreply (.nil _)
  | goesOn hreply _ _ _ _ ih => exact .cons hreply ih

/-- **What is taken is a beginning of the bytes.** -/
theorem taken_prefix (h : Writes sink bytes calls result sink') :
    Call.allTaken calls <+: bytes := by
  induction h with
  | done _ => exact List.nil_prefix
  | stopped _ _ hstop =>
      rw [Call.allTaken, List.flatMap_singleton, Call.taken_of_stop hstop]
      exact List.nil_prefix
  | goesOn _ _ _ hbytes _ ih =>
      rw [Call.allTaken, List.flatMap_cons, hbytes]
      exact (List.prefix_append_right_inj _).mpr ih

/-- **All is taken where no call stops the writing**, and only there. -/
theorem eq_ok_iff (h : Writes sink bytes calls result sink') :
    result = .ok () ↔ Call.allTaken calls = bytes := by
  induction h with
  | done _ => exact ⟨fun _ => rfl, fun _ => rfl⟩
  | stopped hreply hfront hstop =>
      rw [Call.allTaken, List.flatMap_singleton, Call.taken_of_stop hstop]
      refine ⟨fun h => (by cases h), fun hnil => absurd ?_ hreply.1⟩
      subst hnil
      exact List.prefix_nil.mp hfront
  | goesOn _ _ _ hbytes _ ih =>
      rw [ih, Call.allTaken, Call.allTaken, List.flatMap_cons, hbytes, List.append_cancel_left_eq]

/-- A call that stops the writing is the last one, and its reason is the result. -/
theorem last_of_stop (h : Writes sink bytes calls result sink') {before behind : List Call}
    {call : Call} (hcalls : calls = before ++ call :: behind) (hstop : call.stop? = some reason) :
    behind = [] ∧ result = .error reason := by
  induction h generalizing before with
  | done _ => exact absurd hcalls (by simp)
  | stopped _ _ hreason =>
      obtain ⟨rfl, hcall⟩ | ⟨_, rfl, hnil⟩ := List.cons_eq_append_iff.mp hcalls
      · obtain ⟨rfl, rfl⟩ := List.cons.inj hcall
        exact ⟨rfl, congrArg Except.error (Option.some.inj (hreason.symm.trans hstop))⟩
      · simp at hnil
  | goesOn _ _ hgoes _ _ ih =>
      obtain ⟨rfl, hcall⟩ | ⟨before, rfl, hrest⟩ := List.cons_eq_append_iff.mp hcalls
      · obtain ⟨rfl, rfl⟩ := List.cons.inj hcall
        rw [hgoes] at hstop
        cases hstop
      · exact ih hrest

/-- Writing fails for the reason of a call. -/
theorem exists_stop (h : Writes sink bytes calls (.error reason) sink') :
    ∃ call ∈ calls, call.stop? = some reason := by
  generalize hresult : Except.error reason = result at h
  induction h with
  | done _ => cases hresult
  | stopped _ _ hstop =>
      obtain rfl := Except.error.inj hresult
      exact ⟨_, List.mem_singleton_self _, hstop⟩
  | goesOn _ _ _ _ _ ih =>
      obtain ⟨call, hmem, hstop⟩ := ih hresult
      exact ⟨call, List.mem_cons_of_mem _ hmem, hstop⟩

theorem append (h : Writes sink bytes calls (.ok ()) between)
    (hlater : Writes between later calls' result sink') :
    Writes sink (bytes ++ later) (calls ++ calls') result sink' := by
  generalize hok : Except.ok () = ok at h
  induction h with
  | done _ => exact hlater
  | stopped _ _ _ => cases hok
  | goesOn hreply hfront hgoes hbytes _ ih =>
      refine .goesOn hreply (hfront.trans (List.prefix_append _ _)) hgoes ?_ (ih hlater hok)
      rw [hbytes, List.append_assoc]

/-- Where the writing stops, it does not matter what was to be written later. -/
theorem append_of_error (h : Writes sink bytes calls (.error reason) sink')
    (later : List UInt8) : Writes sink (bytes ++ later) calls (.error reason) sink' := by
  generalize herror : Except.error reason = error at h
  induction h with
  | done _ => cases herror
  | stopped hreply hfront hstop =>
      exact .stopped hreply (hfront.trans (List.prefix_append _ _)) hstop
  | goesOn hreply hfront hgoes hbytes _ ih =>
      refine .goesOn hreply (hfront.trans (List.prefix_append _ _)) hgoes ?_ (ih herror)
      rw [hbytes, List.append_assoc]

end Writes

/-! ### Writing is that -/

theorem reply_ne_steady (sink : Sink) (size : Nat) : sink.reply size ≠ .steady := by
  intro hreply
  rw [reply] at hreply
  split at hreply
  · split at hreply <;> cases hreply
  · split at hreply <;> cases hreply
  · next hsteady _ => exact hsteady hreply

/-- Interruptions are planned. -/
theorem plan_ne_nil_of_interrupted {sink : Sink} {size : Nat}
    (h : sink.reply size = .interrupted) : sink.plan ≠ [] := by
  intro hnil
  rw [reply, hnil] at h
  dsimp only [List.head?_nil] at h
  split at h <;> cases h

theorem exists_writes_rounds {rounds : Nat} {sink : Sink} (h : sink.IsCalm) {bytes : List UInt8}
    (hrounds : sink.plan.length + bytes.length ≤ rounds) :
    ∃ calls result sink', sink'.IsCalm ∧ Writes sink bytes calls result sink' ∧
      writeRounds rounds sink bytes = (.ok result, sink') := by
  -- a round uses up an entry of the plan or a byte, so the rounds never run out
  induction rounds generalizing sink bytes with
  | zero =>
      cases bytes with
      | nil => exact ⟨_, _, sink, h, .done sink, rfl⟩
      | cons b bs => simp at hrounds
  | succ rounds ih =>
      cases bytes with
      | nil => exact ⟨_, _, sink, h, .done sink, rfl⟩
      | cons b bs =>
          have hwhole : b :: bs <+: b :: bs := List.prefix_refl _
          have htail (taken : List UInt8) : (sink.taking taken).plan = sink.plan.tail := rfl
          rw [List.length_cons] at hrounds
          rw [writeRounds]
          cases hreply : sink.reply (b :: bs).length with
          | panics => exact absurd hreply (h.reply _)
          | steady => exact absurd hreply (sink.reply_ne_steady _)
          | interrupted =>
              have hplan := List.length_pos_iff.mpr (plan_ne_nil_of_interrupted hreply)
              have hround : (sink.taking []).plan.length + (b :: bs).length ≤ rounds := by
                rw [htail, List.length_tail, List.length_cons]
                omega
              obtain ⟨calls, result, sink', hcalm, hwrites, hrun⟩ := ih (h.taking []) hround
              let call : Call := ⟨b :: bs, .interrupted⟩
              have hcall : sink.Replies call := ⟨List.cons_ne_nil b bs, hreply⟩
              exact ⟨call :: calls, result, sink', hcalm,
                .goesOn hcall hwhole rfl rfl hwrites, hrun⟩
          | failed reason =>
              let call : Call := ⟨b :: bs, .failed reason⟩
              have hcall : sink.Replies call := ⟨List.cons_ne_nil b bs, hreply⟩
              exact ⟨[call], _, _, h.taking [], .stopped hcall hwhole rfl, rfl⟩
          | upTo n =>
              let call : Call := ⟨b :: bs, .upTo n⟩
              have hcall : sink.Replies call := ⟨List.cons_ne_nil b bs, hreply⟩
              cases n with
              | zero => exact ⟨[call], _, _, h.taking [], .stopped hcall hwhole rfl, rfl⟩
              | succ n =>
                  have hround : (sink.taking ((b :: bs).take (n + 1))).plan.length +
                      ((b :: bs).drop (n + 1)).length ≤ rounds := by
                    rw [htail, List.length_tail, List.length_drop, List.length_cons]
                    omega
                  obtain ⟨calls, result, sink', hcalm, hwrites, hrun⟩ := ih (h.taking _) hround
                  have hsplit : b :: bs = call.taken ++ (b :: bs).drop (n + 1) :=
                    (List.take_append_drop (n + 1) (b :: bs)).symm
                  exact ⟨call :: calls, result, sink', hcalm,
                    .goesOn hcall hwhole rfl hsplit hwrites, hrun⟩

/-- **Bytes are offered in order**, and writing them always returns. -/
theorem exists_writes {sink : Sink} (h : sink.IsCalm) (bytes : List UInt8) :
    ∃ calls result sink', sink'.IsCalm ∧ Writes sink bytes calls result sink' ∧
      sink.writeAll bytes = (.ok result, sink') :=
  exists_writes_rounds h (Nat.le_refl _)

/-- What becomes of frames when their bytes were written with a result: the sink is flushed behind
them all, and left as it is where the writing stopped. -/
def flushed (sink : Sink) : Except String Unit → Except Frame.Error Unit × Sink
  | .ok ()        => (sink.flush.1.mapError .io, sink.flush.2)
  | .error reason => (.error (.io reason), sink)

/-- **The bytes of frames are offered in order**, one frame behind the other. -/
theorem exists_writes_stream {sink : Sink} (h : sink.IsCalm) {texts : List String}
    (hsize : ∀ text ∈ texts, text.utf8ByteSize < UInt32.size) :
    ∃ calls result sink', Writes sink (Frame.stream texts) calls result sink' ∧
      sink.writeFrames texts = (.ok (flushed sink' result).1, (flushed sink' result).2) := by
  induction texts generalizing sink with
  | nil => exact ⟨[], .ok (), sink, .done sink, rfl⟩
  | cons text texts ih =>
      obtain ⟨htext, htexts⟩ := List.forall_mem_cons.mp hsize
      obtain ⟨calls, result, between, hcalm, hwrites, hall⟩ := exists_writes h (Frame.bytes text)
      have hcons : Frame.stream (text :: texts) = Frame.bytes text ++ Frame.stream texts :=
        List.flatMap_cons
      rw [hcons, writeFrames, Frame.encode_of_lt htext]
      dsimp only
      rw [hall]
      cases result with
      | error reason => exact ⟨calls, _, between, hwrites.append_of_error _, rfl⟩
      | ok _ =>
          obtain ⟨calls', result, sink', hlater, hframes⟩ := ih hcalm htexts
          exact ⟨calls ++ calls', result, sink', hwrites.append hlater, hframes⟩

/-- Frames are written where the flush behind all of them succeeds. -/
theorem flushed_eq_ok_iff {sink : Sink} {result : Except String Unit} :
    (flushed sink result).1 = .ok () ↔ result = .ok () ∧ sink.flush.1 = .ok () := by
  cases result with
  | error reason => exact ⟨fun h => (by cases h), fun h => (by cases h.1)⟩
  | ok _ =>
      rw [flushed]
      cases sink.flush.1 with
      | error reason => exact ⟨fun h => (by cases h), fun h => (by cases h.2)⟩
      | ok _ => exact ⟨fun _ => ⟨rfl, rfl⟩, fun _ => rfl⟩

/-- Frames fail for the reason for which the writing or the flush did. -/
theorem reason_of_flushed {sink : Sink} {result : Except String Unit} {e : Frame.Error}
    (h : (flushed sink result).1 = .error e) :
    ∃ reason, e = .io reason ∧
      (result = .error reason ∨ result = .ok () ∧ sink.flush.1 = .error reason) := by
  cases result with
  | error reason => exact ⟨reason, (Except.error.inj h).symm, .inl rfl⟩
  | ok _ =>
      rw [flushed] at h
      cases hflush : sink.flush.1 with
      | error reason =>
          rw [hflush] at h
          exact ⟨reason, (Except.error.inj h).symm, .inr ⟨rfl, rfl⟩⟩
      | ok _ =>
          rw [hflush] at h
          cases h

end Sink

/-! ### Sending -/

/-- **A send delivers all frames, or a beginning of them.**  A text with more fragments than a
number can count fails at once, and the way out stays as it is.  Any other text has documents, and
each of them has a frame.  The sink is called for the bytes of the frames: what it takes is a
beginning of them; a call that fails or takes nothing is the last one; the send succeeds exactly
where all was taken and the flush behind it succeeds, and else it fails for the reason of that call
or of the flush. -/
theorem Outbound.send_delivers {outbound : Outbound}
    (hlimit : outbound.chunker.limit ≤ Chunker.maxLimit) (hcalm : outbound.sink.IsCalm)
    (colony : ColonyId) (id : MessageId) (direction : Direction) (payload : String) :
    (UInt32.size ≤ (outbound.chunker.split payload).length →
      outbound.send colony id direction payload =
        (.ok (.error (.tooManyChunks (outbound.chunker.split payload).length)), outbound)) ∧
    ((outbound.chunker.split payload).length < UInt32.size →
      ∃ docs calls sink result outbound',
        outbound.chunker.encode colony id direction payload = .ok docs ∧
        (∀ doc ∈ docs, Frame.encode doc = .ok (Frame.bytes doc)) ∧
        outbound.sink.Answers calls sink ∧
        outbound.send colony id direction payload = (.ok result, outbound') ∧
        outbound'.sink.plan = outbound.sink.plan.drop calls.length ∧
        outbound'.sink.written = (Call.allTaken calls).reverse ++ outbound.sink.written ∧
        Call.allTaken calls <+: Frame.stream docs ∧
        (result = .ok () ↔
          Call.allTaken calls = Frame.stream docs ∧ outbound.sink.flush.1 = .ok ()) ∧
        (∀ before call behind, calls = before ++ call :: behind → call.stop?.isSome → behind = []) ∧
        ∀ e, result = .error e → ∃ reason, e = .io reason ∧
          ((∃ call ∈ calls, call.stop? = some reason) ∨
            Call.allTaken calls = Frame.stream docs ∧ outbound.sink.flush.1 = .error reason)) := by
  constructor
  · intro hmany
    rw [send, Chunker.encode_of_size_le hmany]
  · intro hfew
    obtain ⟨docs, hdocs, -⟩ := Chunker.encode_eq hfew colony id direction
    have hsize := Chunker.utf8ByteSize_lt_of_encode hlimit hdocs
    obtain ⟨calls, written, sink, hwrites, hframes⟩ := Sink.exists_writes_stream hcalm hsize
    have hsink : ∀ result : Except String Unit, (Sink.flushed sink result).2.plan = sink.plan ∧
        (Sink.flushed sink result).2.written = sink.written := by
      rintro (_ | _) <;> exact ⟨rfl, rfl⟩
    refine ⟨docs, calls, sink, (Sink.flushed sink written).1,
      { outbound with sink := (Sink.flushed sink written).2 }, hdocs, ?_, hwrites.answers, ?_, ?_,
      ?_, hwrites.taken_prefix, ?_, ?_, ?_⟩
    · exact fun doc hdoc => Frame.encode_of_lt (hsize doc hdoc)
    · rw [send, hdocs]
      dsimp only
      rw [write, hframes]
    · rw [(hsink written).1, hwrites.answers.plan]
    · rw [(hsink written).2, hwrites.answers.written]
    · rw [Sink.flushed_eq_ok_iff, hwrites.eq_ok_iff, hwrites.answers.flush]
    · intro before call behind hcalls hstop
      obtain ⟨reason, hreason⟩ := Option.isSome_iff_exists.mp hstop
      exact (hwrites.last_of_stop hcalls hreason).1
    · intro e he
      obtain ⟨reason, rfl, hreason⟩ := Sink.reason_of_flushed he
      refine ⟨reason, rfl, ?_⟩
      rcases hreason with rfl | ⟨hok, hflush⟩
      · exact .inl hwrites.exists_stop
      · exact .inr ⟨hwrites.eq_ok_iff.mp hok, hwrites.answers.flush ▸ hflush⟩

/-- A way out whose sink takes three bytes, is interrupted, takes what is left of a frame, takes
seven bytes of the next one, and then fails. -/
def Outbound.faltering : Outbound :=
  ⟨{ Sink.unlimited with
      plan := [.upTo 3, .interrupted, .upTo 1000, .upTo 7, .failed "gone", .upTo 1] },
    .ofLimit 2⟩

/-- Of the two frames of a text, such a sink takes a beginning; it is not called again behind the
failure, which is what the send fails for. -/
theorem Outbound.send_delivers_faltering :
    faltering.chunker.limit ≤ Chunker.maxLimit ∧ faltering.sink.IsCalm ∧
      (faltering.chunker.split "abc").length < UInt32.size ∧
      ∃ docs calls sink outbound',
        faltering.chunker.encode .topLevel ⟨7⟩ .command "abc" = .ok docs ∧
        faltering.sink.Answers calls sink ∧
        faltering.send .topLevel ⟨7⟩ .command "abc" = (.ok (.error (.io "gone")), outbound') ∧
        outbound'.sink.plan = faltering.sink.plan.drop calls.length ∧
        outbound'.sink.plan = [.upTo 1] ∧
        outbound'.sink.written = (Call.allTaken calls).reverse ∧
        (Call.allTaken calls <+: Frame.stream docs ∧ Call.allTaken calls ≠ Frame.stream docs) ∧
        ∃ call ∈ calls, call.stop? = some "gone" := by
  have hlimit : faltering.chunker.limit ≤ Chunker.maxLimit := by decide
  have hcalm : faltering.sink.IsCalm := by simp [faltering, Sink.IsCalm]
  have hfew : (faltering.chunker.split "abc").length < UInt32.size := by decide
  obtain ⟨docs, calls, sink, result, outbound', hdocs, -, hanswers, hsend, hplan, hwritten, hbegins,
    hok, -, hfailed⟩ := (send_delivers hlimit hcalm .topLevel ⟨7⟩ .command "abc").2 hfew
  have hfirst : (faltering.send .topLevel ⟨7⟩ .command "abc").1 = .ok (.error (.io "gone")) := by
    decide +kernel
  have hleft : (faltering.send .topLevel ⟨7⟩ .command "abc").2.sink.plan = [.upTo 1] := by
    decide +kernel
  rw [hsend] at hfirst hleft
  obtain rfl := Except.ok.inj hfirst
  obtain ⟨reason, hreason, hcall | ⟨-, hflush⟩⟩ := hfailed _ rfl
  · obtain rfl := Frame.Error.io.inj hreason
    have hpart : Call.allTaken calls ≠ Frame.stream docs := by
      intro hall
      cases hok.mpr ⟨hall, rfl⟩
    exact ⟨hlimit, hcalm, hfew, docs, calls, sink, outbound', hdocs, hanswers, hsend, hplan, hleft,
      hwritten.trans (List.append_nil _), ⟨hbegins, hpart⟩, hcall⟩
  · cases hflush

end NativeMessaging.Host
