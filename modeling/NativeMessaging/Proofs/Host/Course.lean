import Mathlib.Data.List.DropRight
import NativeMessaging.Host.Loop
import NativeMessaging.Proofs.Host.Bridge

/-!
# Host — a bridge and its plugin, move by move

A course is what is done with a new bridge from outside: messages dispatched, shutdowns, and
anything else that leaves the bridge alone, each with its panic caught.  A bridge is *stranded*
(`IsStranded`) when, since the last shutdown or request for a plugin that returned, a plugin
panicked as it was shut down: the bridge has let go of it by then, and has not yet said so.

* `Move.turn_ensures`: what one move does to the bridge.
* `Faithful`, `faithful_ofMoves`: the invariant, and every course has it.
* `agrees_iff_not_stranded`: the bridge agrees with the plugin it holds exactly where it is not
  stranded.
* `not_agrees_fragile`: a request and a shutdown can strand it.
-/

namespace NativeMessaging.Host

/-- What is done with a bridge from outside, or with the facilities only. -/
inductive Move (κ σ : Type) where
  | dispatch (message : Message)
  | shutdown
  | elsewhere (turn : Turn κ (Facilities σ) Unit)

namespace Move

open Turn (Ensures)
open Bridge (shutdownPanics new Agrees)

variable {κ π σ : Type}

/-- The turn of a move. -/
def turn (plugins : Plugins κ π σ) : Move κ σ → Turn κ (World π σ) Unit
  | .dispatch message => Bridge.dispatch plugins message
  | .shutdown         => Bridge.shutdown plugins
  | .elsewhere turn   => Bridge.offering turn

/-- The moves that let go of a plugin: a shutdown, and a request for another plugin. -/
def replaces : Move κ σ → Bool
  | .dispatch (.create _) => true
  | .dispatch _           => false
  | .shutdown             => true
  | .elsewhere _          => false

/-- **One move.**  Where the plugin that is let go of panics, it is gone and the bridge still says
what it said; a shutdown or a request that returns leaves a bridge that agrees; and every other move
leaves the bridge alone, or as new where it held a plugin. -/
theorem turn_ensures (plugins : Plugins κ π σ) (move : Move κ σ) (scene : Scene κ (World π σ)) :
    (move.turn plugins).Ensures scene fun r s =>
      if move.replaces && shutdownPanics plugins scene then
        r = .error .panic ∧ s.world.bridge = ⟨none, scene.world.bridge.state⟩
      else if move.replaces && r.isOk then s.world.bridge.Agrees
      else s.world.bridge = scene.world.bridge ∨
        scene.world.bridge.plugin.isSome ∧ s.world.bridge = new := by
  cases move with
  | dispatch message =>
      cases message with
      | create mimetype => exact Bridge.create_ensures plugins mimetype scene
      | command colony id payload =>
          have h := Bridge.forward_ensures plugins .command colony id payload scene
          exact h.mono fun _ _ h => .inl h
      | response colony id payload =>
          have h := Bridge.forward_ensures plugins .response colony id payload scene
          exact h.mono fun _ _ h => .inl h
      | error description => exact (Bridge.ack_ensures _ scene).mono fun _ _ h => .inl h
  | shutdown =>
      refine (Bridge.shutdown_ensures plugins scene).mono fun r s h => ?_
      rw [replaces, Bool.true_and, Bool.true_and]
      by_cases hpanics : shutdownPanics plugins scene
      · rwa [if_pos hpanics] at h ⊢
      · rw [if_neg hpanics] at h ⊢
        rw [h.1, h.2]
        rfl
  | elsewhere turn => exact (Bridge.offering_ensures turn scene).mono fun _ _ h => .inl h.2

end Move

/-! ### Courses -/

/-- A move, the scene it began on, and its result. -/
structure Visit (κ π σ : Type) where
  move : Move κ σ
  before : Scene κ (World π σ)
  result : Except Panic Unit

/-- The moves made with a bridge so far, and the loop with the bridge. -/
structure Course (κ π σ : Type) where
  visits : List (Visit κ π σ)
  loop : Loop κ (World π σ)

variable {κ π σ : Type}

/-- A shutdown or a request for a plugin that returned. -/
def Visit.settles (visit : Visit κ π σ) : Bool := visit.move.replaces && visit.result.isOk

/-- A shutdown or a request in which the plugin that was held panicked as it was shut down. -/
def Visit.strands (plugins : Plugins κ π σ) (visit : Visit κ π σ) : Bool :=
  visit.move.replaces && Bridge.shutdownPanics plugins visit.before

namespace Course

/-- The course with one more move; its panic is caught. -/
def next (plugins : Plugins κ π σ) (course : Course κ π σ) (move : Move κ σ) : Course κ π σ :=
  let (result, loop) := course.loop.perform (move.turn plugins)
  ⟨course.visits ++ [⟨move, course.loop.scene, result⟩], loop⟩

/-- The course of some moves with a new bridge. -/
def ofMoves (plugins : Plugins κ π σ) (facilities : Facilities σ) (moves : List (Move κ σ)) :
    Course κ π σ :=
  moves.foldl (next plugins) ⟨[], .start ⟨.new, facilities⟩⟩

/-- The bridge. -/
def bridge (course : Course κ π σ) : Bridge π := course.loop.world.bridge

/-- Since the last shutdown or request that returned, a plugin panicked as it was shut down. -/
def IsStranded (plugins : Plugins κ π σ) (course : Course κ π σ) : Prop :=
  ∃ visit ∈ course.visits.rtakeWhile (!·.settles), visit.strands plugins

theorem ofMoves_concat (plugins : Plugins κ π σ) (facilities : Facilities σ)
    (moves : List (Move κ σ)) (move : Move κ σ) :
    ofMoves plugins facilities (moves ++ [move]) =
      (ofMoves plugins facilities moves).next plugins move := by
  simp [ofMoves]

theorem isStranded_next (plugins : Plugins κ π σ) (course : Course κ π σ) (move : Move κ σ) :
    (course.next plugins move).IsStranded plugins ↔
      (move.replaces && ((move.turn plugins).on course.loop.scene).1.isOk) = false ∧
        ((move.replaces && Bridge.shutdownPanics plugins course.loop.scene) = true ∨
          course.IsStranded plugins) := by
  have hvisits : (course.next plugins move).visits = course.visits ++
      [⟨move, course.loop.scene, ((move.turn plugins).on course.loop.scene).1⟩] := rfl
  rw [IsStranded, hvisits, List.rtakeWhile_concat]
  cases h : move.replaces && ((move.turn plugins).on course.loop.scene).1.isOk with
  | true => simp [Visit.settles, h]
  | false => simp [Visit.settles, Visit.strands, IsStranded, h, or_comm]

/-- A bridge that holds a plugin says so; and one that says so and holds none is stranded, and no
other is. -/
structure Faithful (plugins : Plugins κ π σ) (course : Course κ π σ) : Prop where
  held : course.bridge.plugin.isSome → course.bridge.isActive
  stranded : course.IsStranded plugins ↔ course.bridge.isActive ∧ course.bridge.plugin = none

/-- **One move.** -/
theorem Faithful.next {plugins : Plugins κ π σ} {course : Course κ π σ}
    (h : course.Faithful plugins) (move : Move κ σ) :
    (course.next plugins move).Faithful plugins := by
  have hturn := Move.turn_ensures plugins move course.loop.scene
  have hnext : (course.next plugins move).bridge =
      ((move.turn plugins).on course.loop.scene).2.world.bridge := rfl
  have hnow : course.loop.scene.world.bridge = course.bridge := rfl
  have hstranded := isStranded_next plugins course move
  rw [Turn.Ensures, ← hnext, hnow] at hturn
  by_cases hstrands : (move.replaces && Bridge.shutdownPanics plugins course.loop.scene) = true
  · -- the plugin is gone, and the bridge says what it said while it held it
    rw [if_pos hstrands] at hturn
    have hactive : course.bridge.isActive :=
      h.held (Bridge.isSome_of_shutdownPanics (Bool.and_eq_true_iff.mp hstrands).2)
    obtain ⟨hpanic, hgone⟩ := hturn
    refine ⟨fun hsome => ?_, hstranded.trans ⟨fun _ => ?_, fun _ => ?_⟩⟩
    · rw [hgone] at hsome
      cases hsome
    · rw [hgone]
      exact ⟨hactive, rfl⟩
    · rw [hpanic]
      exact ⟨Bool.and_false _, .inl hstrands⟩
  rw [if_neg hstrands] at hturn
  by_cases hsettles : (move.replaces && ((move.turn plugins).on course.loop.scene).1.isOk) = true
  · rw [if_pos hsettles] at hturn
    refine ⟨hturn.trans, hstranded.trans ⟨fun hs => ?_, fun hs => ?_⟩⟩
    · rw [hsettles] at hs
      cases hs.1
    · rw [Bridge.Agrees, hs.1, hs.2] at hturn
      cases hturn
  · rw [if_neg hsettles] at hturn
    rw [Bool.not_eq_true] at hstrands hsettles
    have hkept : (course.next plugins move).IsStranded plugins ↔ course.IsStranded plugins := by
      rw [hstranded, hstrands, hsettles]
      simp
    rcases hturn with hsame | ⟨hsome, hnew⟩
    · exact ⟨hsame ▸ h.held, hkept.trans (hsame ▸ h.stranded)⟩
    · refine ⟨fun hs => ?_, hkept.trans ⟨fun hs => ?_, fun hs => ?_⟩⟩
      · rw [hnew] at hs
        cases hs
      · rw [(h.stranded.mp hs).2] at hsome
        cases hsome
      · rw [hnew] at hs
        cases hs.1

/-- **Every course.** -/
theorem faithful_ofMoves (plugins : Plugins κ π σ) (facilities : Facilities σ)
    (moves : List (Move κ σ)) : (ofMoves plugins facilities moves).Faithful plugins := by
  induction moves using List.reverseRecOn with
  | nil =>
      refine ⟨fun h => ?_, ⟨fun h => ?_, fun h => ?_⟩⟩
      · cases h
      · obtain ⟨visit, hvisit, -⟩ := h
        cases hvisit
      · cases h.1
  | append_singleton moves move ih =>
      rw [ofMoves_concat]
      exact ih.next move

theorem Faithful.agrees_iff {plugins : Plugins κ π σ} {course : Course κ π σ}
    (h : course.Faithful plugins) : course.bridge.Agrees ↔ ¬ course.IsStranded plugins := by
  rw [h.stranded, Bridge.Agrees]
  cases hplugin : course.bridge.plugin with
  | none => simp
  | some plugin => simp [h.held (hplugin ▸ rfl)]

/-- **Where a bridge agrees with the plugin it holds.**  It says that a plugin is active wherever
it holds one.  It says so where it holds none exactly when, since the last shutdown or request that
returned, a plugin panicked as it was shut down.  And the next half of a call goes to the plugin
that is held; where none is, it is answered. -/
theorem agrees_iff_not_stranded (plugins : Plugins κ π σ) (facilities : Facilities σ)
    (moves : List (Move κ σ)) :
    let course := ofMoves plugins facilities moves
    (course.bridge.plugin.isSome → course.bridge.isActive) ∧
      (course.bridge.Agrees ↔ ¬ course.IsStranded plugins) ∧
      ∀ direction colony id payload,
        (Bridge.dispatch plugins (.ofCall direction colony id payload)).on course.loop.scene =
          match course.bridge.plugin with
          | none        => (Bridge.ack (.failure "No plugin loaded")).on course.loop.scene
          | some plugin =>
            (do let _ ← Bridge.offering (plugins.onCall direction plugin colony id payload)
              : Turn κ (World π σ) Unit).on course.loop.scene := by
  have h := faithful_ofMoves plugins facilities moves
  exact ⟨h.held, h.agrees_iff, fun direction colony id payload =>
    Bridge.on_dispatch_ofCall plugins direction colony id payload _⟩

/-- A plugin that panics when it is shut down, and otherwise does nothing. -/
def fragile : Plugins Unit Unit Unit where
  load _ := return .ok ()
  start _ := return .ok ()
  name _ _ := "A"
  onCall _ _ _ _ _ := return .ok ()
  shutdown _ := Turn.panic

/-- A request and a shutdown strand the bridge of such a plugin: it says that the plugin is active,
and holds none. -/
theorem not_agrees_fragile :
    let course := ofMoves fragile ⟨.empty, ⟨.unlimited, .largest⟩, ()⟩
      [.dispatch (.create "application/x-a"), .shutdown]
    course.bridge = ⟨none, .active "A" "application/x-a"⟩ ∧ ¬ course.bridge.Agrees := by
  have hbridge : (ofMoves fragile ⟨.empty, ⟨.unlimited, .largest⟩, ()⟩
      [.dispatch (.create "application/x-a"), .shutdown]).bridge =
        ⟨none, .active "A" "application/x-a"⟩ := rfl
  refine ⟨hbridge, fun h => ?_⟩
  rw [hbridge] at h
  cases h

end Course

end NativeMessaging.Host
