import Mathlib.Data.List.Induction
import NativeMessaging.Host.Loop

/-!
# Host — the loop keeps what it is given

The turns that the loop gives take items from the front of the queues, and what they leave goes to
the ends.  `Conserves` says of some turns that nothing is lost, doubled or reordered by them: what
was taken from a queue followed by what is in it afterwards is what was in it before followed by
what was put into it.  It holds of no turns at all, it composes, and every step of the loop has it,
whether its turn returns or panics.

* `conserves_round`: one round.
* `Stats.ofEvents_eq`: the counts are the lengths of what was taken.
* `conserves_run`: every run that stops.
-/

namespace NativeMessaging.Host

variable {κ ω : Type}

namespace Item

/-- The call that an item is. -/
def call? : Item κ → Option κ
  | .call c    => some c
  | .message _ => none

/-- The message that an item is. -/
def message? : Item κ → Option Message
  | .call _    => none
  | .message m => some m

end Item

/-! ### What turns took and left -/

section Events

variable (events : List (Event κ))

/-- The calls that were run, in order. -/
def called : List κ := events.filterMap (·.item.call?)

/-- The messages that were dispatched, in order. -/
def dispatched : List Message := events.filterMap (·.item.message?)

/-- The calls that were scheduled, in order. -/
def scheduled : List κ := events.flatMap Event.scheduled

/-- The messages that were posted, in order. -/
def posted : List Message := events.flatMap Event.posted

end Events

/-- The counts of a run are those of its calls and of its messages. -/
theorem Stats.ofEvents_eq (events : List (Event κ)) :
    Stats.ofEvents events = ⟨(called events).length, (dispatched events).length⟩ := by
  induction events using List.reverseRecOn with
  | nil => rfl
  | append_singleton events event ih =>
      obtain ⟨item, p, s, e⟩ := event
      rw [ofEvents, List.foldl_append, ← ofEvents, ih]
      cases item <;> simp [called, dispatched, Item.call?, Item.message?]

namespace Loop

/-- Between two loops, those turns lost, doubled and reordered nothing. -/
structure Conserves (before : Loop κ ω) (events : List (Event κ)) (after : Loop κ ω) : Prop where
  inbound : dispatched events ++ after.inbound = before.inbound ++ posted events
  calls : called events ++ after.calls = before.calls ++ scheduled events

theorem Conserves.refl (loop : Loop κ ω) : Conserves loop [] loop :=
  ⟨(List.append_nil _).symm, (List.append_nil _).symm⟩

theorem Conserves.append {a b c : Loop κ ω} {now later : List (Event κ)}
    (h₁ : Conserves a now b) (h₂ : Conserves b later c) : Conserves a (now ++ later) c where
  inbound := by
    calc dispatched (now ++ later) ++ c.inbound
        = dispatched now ++ (dispatched later ++ c.inbound) := by
          rw [dispatched, List.filterMap_append, List.append_assoc]; rfl
      _ = (dispatched now ++ b.inbound) ++ posted later := by rw [h₂.inbound, List.append_assoc]
      _ = a.inbound ++ posted (now ++ later) := by
          rw [h₁.inbound, posted, posted, posted, List.flatMap_append, List.append_assoc]
  calls := by
    calc called (now ++ later) ++ c.calls
        = called now ++ (called later ++ c.calls) := by
          rw [called, List.filterMap_append, List.append_assoc]; rfl
      _ = (called now ++ b.calls) ++ scheduled later := by rw [h₂.calls, List.append_assoc]
      _ = a.calls ++ scheduled (now ++ later) := by
          rw [h₁.calls, scheduled, scheduled, scheduled, List.flatMap_append, List.append_assoc]

variable {handlers : Handlers κ ω}

/-! ### The steps of a round -/

/-- A call is taken from the front of its queue; what its turn leaves goes to the ends. -/
theorem conserves_takeCall (loop : Loop κ ω) :
    Conserves loop (loop.takeCall handlers).1 (loop.takeCall handlers).2 := by
  obtain ⟨inbound, calls, exit, world⟩ := loop
  cases calls with
  | nil => exact .refl _
  | cons c calls =>
      constructor <;>
        simp [takeCall, give, absorb, dispatched, called, posted, scheduled, Item.call?,
          Item.message?]

/-- A message is taken from the front of its queue; what its turn leaves goes to the ends. -/
theorem conserves_takeMessage (loop : Loop κ ω) :
    Conserves loop (loop.takeMessage handlers).1 (loop.takeMessage handlers).2 := by
  obtain ⟨inbound, calls, exit, world⟩ := loop
  cases inbound with
  | nil => exact .refl _
  | cons m inbound =>
      constructor <;>
        simp [takeMessage, give, absorb, dispatched, called, posted, scheduled, Item.call?,
          Item.message?]

/-- The message of a round is taken from the loop that its call left. -/
theorem conserves_round (loop : Loop κ ω) :
    Conserves loop (loop.round handlers).1 (loop.round handlers).2 :=
  (conserves_takeCall loop).append (conserves_takeMessage (loop.takeCall handlers).2)

/-! ### Runs -/

/-- What a run is: it ends where the loop has been asked to stop, and otherwise goes on behind a
round. -/
theorem run_cases {rounds : Nat} {loop final : Loop κ ω} {events : List (Event κ)}
    (h : loop.run handlers rounds = some (events, final)) :
    events = [] ∧ final = loop ∨
      ∃ k later, rounds = k + 1 ∧ (loop.round handlers).2.run handlers k = some (later, final) ∧
        events = (loop.round handlers).1 ++ later := by
  rw [run.eq_def] at h
  dsimp only at h
  split at h
  · obtain ⟨rfl, rfl⟩ := Prod.mk.inj (Option.some.inj h)
    exact .inl ⟨rfl, rfl⟩
  split at h
  · cases h
  split at h
  · cases h
  · rename_i k
    obtain ⟨⟨later, final'⟩, hlater, heq⟩ := Option.bind_eq_some_iff.mp h
    obtain ⟨rfl, rfl⟩ := Prod.mk.inj (Option.some.inj heq)
    exact .inr ⟨k, later, rfl, hlater, rfl⟩

/-- **A run loses, doubles and reorders nothing.**  Whatever the calls and the dispatched messages
do in their turns, panics included: the messages dispatched in a run that stops, followed by those
that are left over, are those of the start followed by those posted, in order; so for the calls; and
the counts are those of the turns. -/
theorem conserves_run {rounds : Nat} {loop final : Loop κ ω} {events : List (Event κ)}
    (h : loop.run handlers rounds = some (events, final)) :
    dispatched events ++ final.inbound = loop.inbound ++ posted events ∧
      called events ++ final.calls = loop.calls ++ scheduled events ∧
      Stats.ofEvents events = ⟨(called events).length, (dispatched events).length⟩ := by
  have hrun : Conserves loop events final := by
    -- each round conserves from the loop that the one before left
    induction rounds generalizing loop events with
    | zero =>
        obtain ⟨rfl, rfl⟩ | ⟨k, later, hk, -⟩ := run_cases h
        · exact .refl _
        · cases hk
    | succ rounds ih =>
        obtain ⟨rfl, rfl⟩ | ⟨k, later, hk, hlater, rfl⟩ := run_cases h
        · exact .refl _
        · obtain rfl := Nat.succ.inj hk
          exact (conserves_round loop).append (ih hlater)
  exact ⟨hrun.inbound, hrun.calls, Stats.ofEvents_eq events⟩

/-- Calls that post and then panic, or ask to stop; messages that schedule and then panic. -/
def reentrant : Handlers Bool Unit where
  call c := if c then do Turn.post (.create "b"); Turn.panic else Turn.requestExit
  dispatch _ := do Turn.schedule false; Turn.panic

/-- Two rounds: both queues grow in the first, and one call is left over behind the second. -/
theorem conserves_run_reentrant :
    ∃ events final, Loop.run reentrant 2 ⟨[.create "a"], [true], false, ()⟩ = some (events, final) ∧
      (dispatched events, final.calls) = ([.create "a", .create "b"], [false]) ∧
      dispatched events ++ final.inbound = [.create "a"] ++ posted events ∧
      called events ++ final.calls = [true] ++ scheduled events ∧
      Stats.ofEvents events = ⟨(called events).length, (dispatched events).length⟩ := by
  have hrun : (Loop.run reentrant 2 ⟨[.create "a"], [true], false, ()⟩).map
      (fun r => (dispatched r.1, r.2.calls)) = some ([.create "a", .create "b"], [false]) := rfl
  obtain ⟨⟨events, final⟩, h, hend⟩ := Option.map_eq_some_iff.mp hrun
  exact ⟨events, final, h, hend, conserves_run h⟩

end Loop

end NativeMessaging.Host
