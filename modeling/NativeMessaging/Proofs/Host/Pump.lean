import NativeMessaging.Host.Loop
import NativeMessaging.Proofs.Frame.Decoder
import NativeMessaging.Proofs.Host.Deed
import NativeMessaging.Proofs.Host.Inbound

/-!
# Host — the pump

The pump takes the frames of its source one by one, hands each to the table of what is still
arriving, and stops at the end of the bytes or at what is no frame.

* `Makes`: what one text makes, case by case; `receive` does that (`makes_receive`).
* `Facilities.exists_takeFrames`: the frames are taken in order, and nothing behind them.
* `Loop.perform_pump`: the pump, from any loop and any source that delivers.
-/

namespace NativeMessaging.Host

variable {κ π σ : Type}

/-- What a text makes of what is still arriving: a request for a plugin, a rejection by the parser
or by the table, the message that it completes, or nothing. -/
inductive Makes (table : Reassembler) (raw : String) : Option Message → Reassembler → Prop where
  | create {mimetype : String} (h : Envelope.parse raw = .ok (.create mimetype)) :
      Makes table raw (some (.create mimetype)) table
  | unreadable {r : Rejection} (h : Envelope.parse raw = .error r) :
      Makes table raw (some (.error r.message)) table
  | rejected {c : Chunk} {r : Rejection} {table' : Reassembler}
      (h : Envelope.parse raw = .ok (.chunk c)) (haccept : table.accept c = (.error r, table')) :
      Makes table raw (some (.error r.message)) table'
  | completed {c : Chunk} {m : Message} {table' : Reassembler}
      (h : Envelope.parse raw = .ok (.chunk c))
      (haccept : table.accept c = (.ok (some m), table')) :
      Makes table raw (some m) table'
  | incomplete {c : Chunk} {table' : Reassembler} (h : Envelope.parse raw = .ok (.chunk c))
      (haccept : table.accept c = (.ok none, table')) : Makes table raw none table'

/-- What texts make, one behind the other. -/
inductive MakesAll : Reassembler → List String → List Message → Reassembler → Prop where
  | nil (table : Reassembler) : MakesAll table [] [] table
  | cons {table table₁ table' : Reassembler} {raw : String} {raws : List String}
      {message : Option Message} {messages : List Message} (h : Makes table raw message table₁)
      (t : MakesAll table₁ raws messages table') :
      MakesAll table (raw :: raws) (message.toList ++ messages) table'

namespace Facilities

theorem makes_receive (table : Reassembler) (raw : String) :
    Makes table raw (receive table raw).1 (receive table raw).2 := by
  rw [receive]
  cases hparse : Envelope.parse raw with
  | error r => exact .unreadable hparse
  | ok envelope =>
      cases envelope with
      | create mimetype => exact .create hparse
      | chunk c =>
          dsimp only
          rcases haccept : table.accept c with ⟨r | _ | m, table'⟩
          · exact .rejected hparse haccept
          · exact .incomplete hparse haccept
          · exact .completed hparse haccept

/-- **The frames are taken in order**, up to the end of the bytes or to what is no frame. -/
theorem exists_takeFrames {limit : Nat} {source : Frame.Source} (h : source.Delivers)
    {texts : List String} {rest : List UInt8}
    (hleading : Frame.Leading limit source.bytes texts rest)
    {rounds : Nat} (hrounds : texts.length < rounds) (taken : Nat)
    (scene : Scene κ (Facilities σ)) :
    ∃ messages table, MakesAll scene.world.table texts messages table ∧
      (takeFrames limit rounds taken source).on scene =
        (.ok (taken + texts.length), { scene with
          posted := scene.posted ++ messages
          world := { scene.world with table := table } }) := by
  induction texts generalizing source rounds taken scene with
  | nil =>
      obtain ⟨rounds, rfl⟩ : ∃ k, rounds = k + 1 := ⟨rounds - 1, by omega⟩
      obtain ⟨source', -, -, hread⟩ := Frame.Source.exists_readFrame_eq h limit
      obtain ⟨hbytes, -, hstops⟩ := hleading
      have hstop : (takeFrames limit (rounds + 1) taken source : Turn κ (Facilities σ) Nat) =
          pure taken := by
        rw [takeFrames, hread]
        rcases hstops with rfl | ⟨e, he⟩
        · rw [hbytes]
          rfl
        · have hnext : (Frame.next limit source.bytes).1 = .error e := by rw [hbytes]; exact he
          rw [hnext]
      refine ⟨[], scene.world.table, .nil _, ?_⟩
      rw [hstop, List.append_nil]
      rfl
  | cons text texts ih =>
      obtain ⟨rounds, rfl⟩ : ∃ k, rounds = k + 1 := ⟨rounds - 1, by omega⟩
      obtain ⟨hbytes, hfits, hstops⟩ := hleading
      obtain ⟨hfirst, hmore⟩ := List.forall_mem_cons.mp hfits
      rw [Frame.stream_cons, List.append_assoc] at hbytes
      obtain ⟨source', hdelivers, hrest, hread⟩ :=
        Frame.Source.exists_readFrame h hbytes hfirst.limit hfirst.size
      -- what the rest makes, it makes of what the first text left
      obtain ⟨messages, table, hmakes, hrun⟩ := ih hdelivers ⟨hrest, hmore, hstops⟩
        (Nat.lt_of_succ_lt_succ hrounds) (taken + 1) { scene with
          posted := scene.posted ++ (receive scene.world.table text).1.toList
          world := { scene.world with table := (receive scene.world.table text).2 } }
      refine ⟨_, table, .cons (makes_receive _ text) hmakes, ?_⟩
      rw [takeFrames, hread]
      dsimp only
      rw [Turn.on_bind, on_messageIn]
      dsimp only
      rw [hrun, List.append_assoc, List.length_cons, Nat.add_assoc, Nat.add_comm 1]

end Facilities

/-- **The pump.** -/
theorem Loop.perform_pump {source : Frame.Source} (h : source.Delivers) (limit : Nat)
    (loop : Loop κ (World π σ)) :
    ∃ texts rest messages table, Frame.Leading limit source.bytes texts rest ∧
      (∀ texts', (∀ text ∈ texts', Frame.Fits limit text) → Frame.stream texts' <+: source.bytes →
        texts' <+: texts) ∧
      MakesAll loop.world.facilities.table texts messages table ∧
      loop.perform (Bridge.offering (Facilities.pump limit source)) =
        (.ok texts.length, { loop with
          inbound := loop.inbound ++ messages
          exitRequested := true
          world := { loop.world with
            facilities := { loop.world.facilities with table := table } } }) := by
  obtain ⟨texts, rest, hleading⟩ := Frame.exists_leading limit source.bytes
  have hrounds : texts.length < source.bytes.length + 1 := by
    have hframes := Frame.length_le_stream texts
    rw [hleading.bytes, List.length_append]
    omega
  obtain ⟨messages, table, hmakes, hrun⟩ := Facilities.exists_takeFrames h hleading hrounds 0
    (Bridge.offered loop.scene)
  refine ⟨texts, rest, messages, table, hleading, fun _ => hleading.isPrefix, hmakes, ?_⟩
  have hpump : (Facilities.pump limit source).on (Bridge.offered loop.scene) =
      (.ok texts.length, ⟨messages, [], true, { loop.world.facilities with table := table }⟩) := by
    rw [Facilities.pump, Turn.on_bind, hrun, Nat.zero_add]
    rfl
  rw [perform, on_offering, hpump]
  dsimp only [absorb]
  rw [List.append_nil, Bool.or_true]
  rfl

/-- A request for a plugin, the second half of a call, what is no object, the first half, and then
bytes that are no text, with a frame behind them. -/
def halves : Frame.Source :=
  let half (place : UInt32) (fragment : String) : String :=
    (Chunk.mk ⟨7⟩ .topLevel .command 2 place fragment).document
  let request := "\x7b\"cmd\":\"create\",\"mimetype\":\"a\"\x7d"
  ⟨Frame.stream [request, half 2 "b", "[]", half 1 "a"] ++ Frame.header 1 ++ [255] ++
      Frame.bytes request,
    [.upTo 3, .interrupted, .upTo 1, .upTo 2]⟩

/-- A loop with a message and a call. -/
def laden : Loop Unit (World Unit Unit) :=
  ⟨[.error "earlier"], [()], false, .new, .empty, ⟨.unlimited, .largest⟩, ()⟩

/-- The halves are joined, and what is behind the bytes that are no text is not taken. -/
theorem Loop.perform_pump_halves :
    let pumped := laden.perform (Bridge.offering (Facilities.pump 256 halves))
    halves.Delivers ∧
      pumped.2.inbound = [.error "earlier", .create "a",
        .error "invalid message: envelope is not an object", .command .topLevel ⟨7⟩ "ab"] ∧
      ∃ texts rest messages table, Frame.Leading 256 halves.bytes texts rest ∧
        (∀ texts', (∀ text ∈ texts', Frame.Fits 256 text) → Frame.stream texts' <+: halves.bytes →
          texts' <+: texts) ∧
        MakesAll laden.world.facilities.table texts messages table ∧
        pumped = (.ok texts.length, { laden with
          inbound := laden.inbound ++ messages
          exitRequested := true
          world := { laden.world with
            facilities := { laden.world.facilities with table := table } } }) := by
  have hdelivers : halves.Delivers := by simp [halves, Frame.Source.Delivers, Frame.Delivers]
  exact ⟨hdelivers, by decide +kernel, perform_pump hdelivers 256 laden⟩

end NativeMessaging.Host
