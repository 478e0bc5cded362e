import NativeMessaging.Proofs.Host.Course
import NativeMessaging.Proofs.Host.Deed

/-!
# Host — a sink that does not panic

A sink is *calm* when it answers no call with a panic (`Sink.IsCalm`).  It may fail, take bytes in
pieces or none, fill up, and refuse to be flushed.

* `Sink.exists_writeFrames_calm`: writing to a calm sink always returns, and leaves it calm.
* `Bridge.ack_calm`: so an ack always returns.
* `keepsCalm_sendFor`: what a plugin writes leaves a calm sink calm.
-/

namespace NativeMessaging.Host

variable {κ π σ α β : Type}

/-! ### Writing -/

namespace Sink

/-- The sink does not panic. -/
def IsCalm (sink : Sink) : Prop := .panics ∉ sink.plan

theorem IsCalm.taking {sink : Sink} (h : sink.IsCalm) (bytes : List UInt8) :
    (sink.taking bytes).IsCalm := fun hmem => h (List.mem_of_mem_tail hmem)

theorem IsCalm.reply {sink : Sink} (h : sink.IsCalm) (size : Nat) : sink.reply size ≠ .panics := by
  intro hreply
  rw [Sink.reply] at hreply
  split at hreply
  · split at hreply <;> cases hreply
  · split at hreply <;> cases hreply
  · next hplan =>
    subst hreply
    exact h (List.mem_of_mem_head? hplan)

theorem exists_writeRounds_calm {sink : Sink} (h : sink.IsCalm) (rounds : Nat)
    (bytes : List UInt8) :
    ∃ result sink', sink'.IsCalm ∧ writeRounds rounds sink bytes = (.ok result, sink') := by
  induction rounds generalizing sink bytes with
  | zero => cases bytes <;> exact ⟨_, sink, h, rfl⟩
  | succ rounds ih =>
      cases bytes with
      | nil => exact ⟨_, sink, h, rfl⟩
      | cons b bs =>
          rw [writeRounds]
          cases hreply : sink.reply (b :: bs).length with
          | panics => exact absurd hreply (h.reply _)
          | interrupted => exact ih (h.taking []) _
          | steady => exact ⟨_, _, h.taking [], rfl⟩
          | failed reason => exact ⟨_, _, h.taking [], rfl⟩
          | upTo n =>
              cases n with
              | zero => exact ⟨_, _, h.taking [], rfl⟩
              | succ n => exact ih (h.taking _) _

/-- **Writing texts always returns**, and leaves the sink calm. -/
theorem exists_writeFrames_calm {sink : Sink} (h : sink.IsCalm) (texts : List String) :
    ∃ result sink', sink'.IsCalm ∧ sink.writeFrames texts = (.ok result, sink') :=
  exists_writeFrames_of (fun _ h bytes => exists_writeRounds_calm h _ bytes) (fun _ h => h) h texts

end Sink

theorem Outbound.exists_write_calm {outbound : Outbound} (h : outbound.sink.IsCalm)
    (texts : List String) :
    ∃ result outbound', outbound'.sink.IsCalm ∧
      outbound.write texts = (.ok result, outbound') :=
  exists_write_of (Sink.exists_writeFrames_calm h texts)

/-- The sink does not panic. -/
def Facilities.IsCalm (facilities : Facilities σ) : Prop := facilities.outbound.sink.IsCalm

/-! ### Turns that keep a sink calm -/

/-- The turn leaves a calm sink calm, whether it returns or panics. -/
def KeepsCalm (turn : Turn κ (Facilities σ) α) : Prop :=
  ∀ scene, scene.world.IsCalm → (turn.on scene).2.world.IsCalm

/-- Plugins that leave a calm sink calm. -/
structure Plugins.KeepCalm (plugins : Plugins κ π σ) : Prop where
  load (mimetype : String) : KeepsCalm (plugins.load mimetype)
  start (plugin : π) : KeepsCalm (plugins.start plugin)
  onCall (direction : Direction) (plugin : π) (colony : ColonyId) (id : MessageId)
    (payload : String) : KeepsCalm (plugins.onCall direction plugin colony id payload)
  shutdown (plugin : π) : KeepsCalm (plugins.shutdown plugin)

/-- A move that leaves a calm sink calm, beside what the plugins do. -/
def Move.KeepsCalm : Move κ σ → Prop
  | .elsewhere turn => Host.KeepsCalm turn
  | _               => True

theorem keepsCalm_pure (a : α) : KeepsCalm (pure a : Turn κ (Facilities σ) α) := fun _ h => h

theorem keepsCalm_panic : KeepsCalm (Turn.panic : Turn κ (Facilities σ) α) := fun _ h => h

theorem KeepsCalm.bind {turn : Turn κ (Facilities σ) α} {next : α → Turn κ (Facilities σ) β}
    (h : KeepsCalm turn) (hnext : ∀ a, KeepsCalm (next a)) : KeepsCalm (turn >>= next) :=
  Turn.Keeps.bind h hnext

/-- What a plugin writes leaves a calm sink calm. -/
theorem keepsCalm_sendFor (direction : Direction) (colony : ColonyId) (id : MessageId)
    (payload : String) :
    KeepsCalm (Facilities.sendFor direction colony id payload : Turn κ (Facilities σ) _) :=
  keeps_sendFor (fun _ texts h => Outbound.exists_write_calm h texts) direction colony id payload

/-! ### Acks -/

/-- **An ack always returns**, and changes nothing but the way out. -/
theorem Bridge.ack_calm (a : Ack) {scene : Scene κ (World π σ)}
    (h : scene.world.facilities.IsCalm) :
    (ack a).Ensures scene fun r s => r = .ok () ∧ s.world.facilities.IsCalm ∧
      s.world.bridge = scene.world.bridge ∧
      s.world.facilities.own = scene.world.facilities.own := by
  obtain ⟨result, outbound, hcalm, hwrite⟩ := Outbound.exists_write_calm h [a.print]
  have hsend := on_sendAck (s := offered scene) hwrite
  have hack : (ack a).on scene =
      (.ok (), ((offering (Facilities.sendAck a)).on scene).2) := by
    rw [ack, Turn.on_bind, on_offering, hsend]
    rfl
  rw [Turn.Ensures, hack, on_offering, hsend]
  exact ⟨rfl, hcalm, rfl, rfl⟩

end NativeMessaging.Host
