import NativeMessaging.Proofs.Host.Calm
import NativeMessaging.Proofs.Host.Ledger

/-!
# Host — the lifecycle of plugins

The bridge lets go of a plugin before it shuts it down, and holds one only when it has been started
and its ack is on the way.  So what the plugins of a bridge receive is a path of their ledger, move
by move (`Move.turn_reached`), whatever panics in a move; and a request or a shutdown goes through a
moment at which none is alive.

* `Facilities.Reached`: the sink is calm, and the ledger is at the end of a path.
* `Bridge.load_reached`, `shutdown_reached`, `create_reached`, `forward_reached`: the operations.
* `Course.lifecycle`: what the plugins of every course receive.
-/

namespace NativeMessaging.Host

open Turn (Ensures)
open Bridge (offered offering)

variable {κ π σ α : Type} {plugins : Plugins κ π σ} {l : Ledger} {alive : Option Nat}

/-- The ledger of plugins that are watched, while that instance is alive. -/
def Facilities.ledger (facilities : Facilities (Watch σ)) (alive : Option Nat) : Ledger :=
  ⟨facilities.own.loaded, alive, facilities.own.log⟩

/-- The number of the plugin that a bridge holds. -/
def Bridge.held (bridge : Bridge (Instance π)) : Option Nat := bridge.plugin.map Instance.number

/-- The sink is calm, and a path leads to the ledger with that instance alive. -/
structure Facilities.Reached (l : Ledger) (alive : Option Nat)
    (facilities : Facilities (Watch σ)) : Prop where
  calm : facilities.IsCalm
  path : l.Path (facilities.ledger alive)

/-- So it is, and the instance is the one that the bridge holds. -/
def World.Reached (l : Ledger) (world : World (Instance π) (Watch σ)) : Prop :=
  world.facilities.Reached l world.bridge.held

theorem World.reached_of_plugin {world : World (Instance π) (Watch σ)}
    {plugin : Option (Instance π)} (hplugin : world.bridge.plugin = plugin)
    (h : world.facilities.Reached l (plugin.map Instance.number)) : world.Reached l := by
  rw [World.Reached, Bridge.held, hplugin]
  exact h

/-! ### What the plugins receive -/

section Plugins

variable {scene : Scene κ (Facilities (Watch σ))}

/-- A turn that does not see the log is no receipt. -/
theorem Turn.watched_reached {turn : Turn κ (Facilities σ) α} (hcalm : KeepsCalm turn)
    (h : scene.world.Reached l alive) :
    turn.watched.Ensures scene fun _ s => s.world.Reached l alive :=
  ⟨hcalm (scene.map Facilities.unwatched) h.calm, h.path⟩

/-- A turn that an instance receives is one receipt. -/
theorem Turn.noted_ensures {turn : Turn κ (Facilities σ) α} (hcalm : KeepsCalm turn) (n : Nat)
    (method : Except Panic α → Method) (h : scene.world.IsCalm) :
    (turn.noted n method).Ensures scene fun r s => s.world.IsCalm ∧ ∀ alive,
      s.world.ledger alive =
        ⟨scene.world.own.loaded, alive, scene.world.own.log ++ [⟨n, method r⟩]⟩ :=
  ⟨hcalm (scene.map Facilities.unwatched) h, fun _ => rfl⟩

/-- The instance that is alive is called. -/
theorem Plugins.onCall_reached (hplugins : plugins.KeepCalm) (direction : Direction)
    {i : Instance π} (colony : ColonyId) (id : MessageId) (payload : String)
    (h : scene.world.Reached l (some i.number)) :
    (plugins.watched.onCall direction i colony id payload).Ensures scene fun _ s =>
      s.world.Reached l (some i.number) := by
  have hnoted := Turn.noted_ensures (hplugins.onCall direction i.plugin colony id payload) i.number
    (fun _ => .onCall direction colony id payload) h.calm
  refine hnoted.mono fun r s hs => ⟨hs.1, ?_⟩
  rw [hs.2]
  exact h.path.more (.called _ _ _ rfl)

/-- The instance that is alive is shut down, whether it panics or not. -/
theorem Plugins.shutdown_reached (hplugins : plugins.KeepCalm) {i : Instance π}
    (h : scene.world.Reached l (some i.number)) :
    (plugins.watched.shutdown i).Ensures scene fun _ s => s.world.Reached l none := by
  have hnoted := Turn.noted_ensures (hplugins.shutdown i.plugin) i.number (fun _ => .shutdown)
    h.calm
  refine hnoted.mono fun r s hs => ⟨hs.1, ?_⟩
  rw [hs.2]
  exact h.path.more (.shutdown _ _ _)

/-- A plugin that is loaded has the next number. -/
theorem Plugins.load_reached (hplugins : plugins.KeepCalm) (mimetype : String)
    (h : scene.world.Reached l none) :
    (plugins.watched.load mimetype).Ensures scene fun r s =>
      match r with
      | .ok (.ok i) => s.world.IsCalm ∧ s.world.own.loaded = i.number + 1 ∧
          l.Path ⟨i.number, none, s.world.own.log⟩
      | _           => s.world.Reached l none := by
  refine (Turn.watched_reached (hplugins.load mimetype) h).bind (fun loaded s₁ h₁ => ?_)
    fun _ _ h₁ => h₁
  cases loaded with
  | error e => exact h₁
  | ok plugin => exact ⟨h₁.calm, rfl, h₁.path⟩

/-- A plugin that has just been loaded is started: it is alive where that succeeds. -/
theorem Plugins.start_reached (hplugins : plugins.KeepCalm) {i : Instance π}
    (hcalm : scene.world.IsCalm) (hloaded : scene.world.own.loaded = i.number + 1)
    (hpath : l.Path ⟨i.number, none, scene.world.own.log⟩) :
    (plugins.watched.start i).Ensures scene fun r s =>
      match r with
      | .ok (.ok ()) => s.world.Reached l (some i.number)
      | _            => s.world.Reached l none := by
  have hnoted := Turn.noted_ensures (hplugins.start i.plugin) i.number Method.ofStart hcalm
  rw [hloaded] at hnoted
  refine hnoted.mono fun r s hs => ?_
  rcases r with _ | _ | _
  · exact ⟨hs.1, hs.2 none ▸ hpath.more (.notStarted _ _)⟩
  · exact ⟨hs.1, hs.2 none ▸ hpath.more (.notStarted _ _)⟩
  · exact ⟨hs.1, hs.2 (some i.number) ▸ hpath.more (.started _ _)⟩

/-- Loading a plugin and starting it: where both succeed, it is alive. -/
theorem Bridge.load_reached (hplugins : plugins.KeepCalm) (mimetype : String)
    (h : scene.world.Reached l none) :
    (load plugins.watched mimetype).Ensures scene fun r s =>
      match r with
      | .ok (.ok i) => s.world.Reached l (some i.number)
      | _           => s.world.Reached l none := by
  refine (plugins.load_reached hplugins mimetype h).bind (fun loaded s₁ h₁ => ?_)
    fun _ _ h₁ => h₁
  cases loaded with
  | error e => exact h₁
  | ok i =>
      obtain ⟨hcalm, hloaded, hpath⟩ := h₁
      refine (plugins.start_reached hplugins hcalm hloaded hpath).bind (fun started s₂ h₂ => ?_)
        fun _ _ h₂ => h₂
      cases started with
      | error e => exact h₂
      | ok _ => exact h₂

end Plugins

/-! ### The operations of the bridge -/

namespace Bridge

variable {scene : Scene κ (World (Instance π) (Watch σ))}

/-- What a turn ensures that sees the facilities only. -/
theorem offering_ensures_of {turn : Turn κ (Facilities σ) α} {scene : Scene κ (World π σ)}
    {post : Except Panic α → Scene κ (Facilities σ) → Prop}
    (h : turn.Ensures (offered scene) post) :
    (offering turn).Ensures scene fun r s => post r (offered s) ∧
      s.world.bridge = scene.world.bridge := ⟨h, rfl⟩

/-- An ack returns, and is no receipt. -/
theorem ack_reached (a : Ack) (h : scene.world.facilities.Reached l alive) :
    (ack a).Ensures scene fun r s => r = .ok () ∧ s.world.facilities.Reached l alive ∧
      s.world.bridge = scene.world.bridge := by
  refine (ack_calm a h.calm).mono fun r s hs => ?_
  obtain ⟨hr, hcalm, hbridge, hown⟩ := hs
  have hpath := h.path
  rw [Facilities.ledger, ← hown] at hpath
  exact ⟨hr, ⟨hcalm, hpath⟩, hbridge⟩

/-- Behind a shutdown none is alive, whether the plugin panics in it or not. -/
theorem shutdown_reached (hplugins : plugins.KeepCalm) (h : scene.world.Reached l) :
    (shutdown plugins.watched).Ensures scene fun _ s =>
      s.world.bridge.plugin = none ∧ s.world.facilities.Reached l none := by
  refine Ensures.world ?_
  rw [World.Reached, held] at h
  cases hplugin : scene.world.bridge.plugin with
  | none =>
      rw [hplugin] at h
      exact ⟨hplugin, h⟩
  | some i =>
      rw [hplugin] at h
      refine (setPlugin_ensures none scene).bind (fun _ s₁ h₁ => ?_) fun _ _ h₁ => nomatch h₁.1
      obtain ⟨-, hbridge, hoffered⟩ := h₁
      have halive : (offered scene).world.Reached l (some i.number) := h
      rw [← hoffered] at halive
      have hshutdown := plugins.shutdown_reached hplugins halive
      have hgone : s₁.world.bridge.plugin = none := by rw [hbridge]
      refine (offering_ensures_of hshutdown).bind (fun _ s₂ h₂ => ?_) fun _ s₂ h₂ => ?_
      · exact ⟨(congrArg Bridge.plugin h₂.2).trans hgone, h₂.1⟩
      · exact ⟨(congrArg Bridge.plugin h₂.2).trans hgone, h₂.1⟩

/-- A plugin is installed where none is alive. -/
theorem install_reached (hplugins : plugins.KeepCalm) (mimetype : String)
    (hnone : scene.world.bridge.plugin = none) (h : scene.world.facilities.Reached l none) :
    (install plugins.watched mimetype).Ensures scene fun _ s => s.world.Reached l := by
  have hoffered : (offered scene).world.Reached l none := h
  have hload := load_reached hplugins mimetype hoffered
  have hstays {s : Scene κ (World (Instance π) (Watch σ))}
      (hbridge : s.world.bridge = scene.world.bridge) : s.world.bridge.plugin = none := by
    rw [hbridge, hnone]
  refine (offering_ensures_of hload).bind (fun loaded s₁ h₁ => ?_)
    fun _ _ h₁ => World.reached_of_plugin (hstays h₁.2) h₁.1
  obtain ⟨hreached, hbridge⟩ := h₁
  cases loaded with
  | error e =>
      refine (ack_reached _ hreached).bind (fun _ s₂ h₂ => ?_) fun _ _ h₂ => nomatch h₂.1
      have hreached₂ : s₂.world.Reached l :=
        World.reached_of_plugin (hstays (h₂.2.2.trans hbridge)) h₂.2.1
      exact hreached₂
  | ok i =>
      refine Ensures.world ?_
      refine (ack_reached _ hreached).bind (fun _ s₂ h₂ => ?_) fun _ _ h₂ => nomatch h₂.1
      exact h₂.2.1

/-- A request goes through a moment at which none is alive. -/
theorem create_reached (hplugins : plugins.KeepCalm) (mimetype : String)
    (h : scene.world.Reached l) :
    (create plugins.watched mimetype).Ensures scene fun _ s =>
      ∃ between, l.Path between ∧ between.alive = none ∧ s.world.Reached between := by
  -- what is left to do when none is alive
  have hinstall {s₁ : Scene κ (World (Instance π) (Watch σ))}
      (hnone : s₁.world.bridge.plugin = none) (h₁ : s₁.world.facilities.Reached l none) :
      (install plugins.watched mimetype).Ensures s₁ fun _ s =>
        ∃ between, l.Path between ∧ between.alive = none ∧ s.world.Reached between :=
    (install_reached hplugins mimetype hnone ⟨h₁.calm, .refl _⟩).mono
      fun _ _ hs => ⟨_, h₁.path, rfl, hs⟩
  rw [create_eq]
  refine Ensures.world ?_
  by_cases hheld : scene.world.bridge.plugin.isSome
  · rw [if_pos hheld]
    refine (shutdown_reached hplugins h).bind (fun _ s₁ h₁ => hinstall h₁.1 h₁.2) fun _ s₁ h₁ => ?_
    exact ⟨_, h₁.2.path, rfl, World.reached_of_plugin h₁.1 ⟨h₁.2.calm, .refl _⟩⟩
  · have hnone : scene.world.bridge.plugin = none := by simpa using hheld
    rw [World.Reached, held, hnone] at h
    rw [if_neg hheld]
    exact hinstall hnone h

/-- A call goes to the plugin that is alive, or to none. -/
theorem forward_reached (hplugins : plugins.KeepCalm) (direction : Direction) (colony : ColonyId)
    (id : MessageId) (payload : String) (h : scene.world.Reached l) :
    (forward plugins.watched direction colony id payload).Ensures scene fun _ s =>
      s.world.Reached l := by
  refine Ensures.world ?_
  have hstays {s : Scene κ (World (Instance π) (Watch σ))}
      (hbridge : s.world.bridge = scene.world.bridge)
      (hs : s.world.facilities.Reached l scene.world.bridge.held) : s.world.Reached l :=
    World.reached_of_plugin (congrArg Bridge.plugin hbridge) hs
  cases hplugin : scene.world.bridge.plugin with
  | none => exact (ack_reached _ h).mono fun _ _ hs => hstays hs.2.2 hs.2.1
  | some i =>
      have hheld : scene.world.bridge.held = some i.number := congrArg _ hplugin
      rw [World.Reached, hheld] at h
      rw [hheld] at hstays
      have halive : (offered scene).world.Reached l (some i.number) := h
      have hcall := plugins.onCall_reached hplugins direction colony id payload halive
      exact (offering_ensures_of hcall).bind (fun _ _ hs => hstays hs.2 hs.1)
        fun _ _ hs => hstays hs.2 hs.1

end Bridge

/-- **One move.**  What the plugins receive in it continues the path; in a shutdown or a request,
through a moment at which none is alive. -/
theorem Move.turn_reached (hplugins : plugins.KeepCalm) {move : Move κ σ} (hmove : move.KeepsCalm)
    {scene : Scene κ (World (Instance π) (Watch σ))} (h : scene.world.Reached l) :
    (move.watched.turn plugins.watched).Ensures scene fun _ s =>
      ∃ between, l.Path between ∧ (move.replaces → between.alive = none) ∧
        s.world.Reached between := by
  have hone {turn : Turn κ (World (Instance π) (Watch σ)) Unit} (hkeeps : ¬ move.replaces)
      (hturn : turn.Ensures scene fun _ s => s.world.Reached l) :
      turn.Ensures scene fun _ s => ∃ between, l.Path between ∧
        (move.replaces → between.alive = none) ∧ s.world.Reached between :=
    hturn.mono fun _ _ hs => ⟨l, .refl l, fun hreplaces => absurd hreplaces hkeeps, hs⟩
  cases move with
  | dispatch message =>
      cases message with
      | create mimetype =>
          refine (Bridge.create_reached hplugins mimetype h).mono fun _ _ hs => ?_
          obtain ⟨between, hpath, hnone, hreached⟩ := hs
          exact ⟨between, hpath, fun _ => hnone, hreached⟩
      | command colony id payload =>
          exact hone nofun (Bridge.forward_reached hplugins .command colony id payload h)
      | response colony id payload =>
          exact hone nofun (Bridge.forward_reached hplugins .response colony id payload h)
      | error description =>
          refine hone nofun ((Bridge.ack_reached _ h).mono fun _ s hs => ?_)
          exact World.reached_of_plugin (congrArg Bridge.plugin hs.2.2) hs.2.1
  | shutdown =>
      refine (Bridge.shutdown_reached hplugins h).mono fun _ s hs => ?_
      exact ⟨_, hs.2.path, fun _ => rfl, World.reached_of_plugin hs.1 ⟨hs.2.calm, .refl _⟩⟩
  | elsewhere turn =>
      have hoffered : (offered scene).world.Reached l scene.world.bridge.held := h
      have hturn := Turn.watched_reached hmove hoffered
      refine hone nofun ((Bridge.offering_ensures_of hturn).mono fun _ s hs => ?_)
      exact World.reached_of_plugin (congrArg Bridge.plugin hs.2) hs.1

/-! ### Courses -/

namespace Course

variable {facilities : Facilities σ} {moves : List (Move κ σ)}

/-- **More moves** continue the path. -/
theorem reached_append (hplugins : plugins.KeepCalm)
    (h : (watched plugins facilities moves).loop.world.Reached l) {later : List (Move κ σ)}
    (hlater : ∀ move ∈ later, move.KeepsCalm) :
    (watched plugins facilities (moves ++ later)).loop.world.Reached l := by
  induction later using List.reverseRecOn with
  | nil => rwa [List.append_nil]
  | append_singleton later move ih =>
      obtain ⟨hbefore, hmove⟩ := List.forall_mem_append.mp hlater
      rw [← List.append_assoc, watched_concat]
      have hnow : (watched plugins facilities (moves ++ later)).loop.scene.world.Reached l :=
        ih hbefore
      obtain ⟨between, hpath, -, hreached⟩ :=
        Move.turn_reached hplugins (List.forall_mem_singleton.mp hmove) hnow
      exact ⟨hreached.calm, hpath.trans hreached.path⟩

/-- What plugins received that are started and let go of again. -/
theorem count_shutdown (hplugins : plugins.KeepCalm)
    (h : (watched plugins facilities moves).loop.world.Reached .new) {move : Move κ σ}
    (hmove : move.KeepsCalm) (hreplaces : move.replaces) {later : List (Move κ σ)}
    (hlater : ∀ move ∈ later, move.KeepsCalm) {n : Nat}
    (hstart : ⟨n, .start true⟩ ∈ (watched plugins facilities moves).log) :
    (received (watched plugins facilities (moves ++ [move] ++ later)).log n).count .shutdown =
      1 := by
  let now := (watched plugins facilities moves).loop.scene
  have hnow : now.world.Reached (now.world.facilities.ledger now.world.bridge.held) :=
    ⟨h.calm, .refl _⟩
  obtain ⟨between, hpath, hnone, hreached⟩ := Move.turn_reached hplugins hmove hnow
  have hafter : (watched plugins facilities (moves ++ [move])).loop.world.Reached between := by
    rw [watched_concat]
    exact hreached
  exact (h.path.trans hpath).count_shutdown (hnone hreplaces) (hpath.log_prefix.mem hstart)
    (reached_append hplugins hafter hlater).path

/-- **The lifecycle of plugins.**  Whatever rejects or panics, through a sink that does not panic:
watching the plugins changes nothing.  Each instance has one life, which goes on for the one that
the bridge holds: a start, and where that succeeds, calls, and at most one shutdown, behind which
there is nothing.  At every moment at most one is alive, and at the start of any other none is.  And
behind a shutdown or a request, those that were started before have been shut down exactly once, and
are never shut down again. -/
theorem lifecycle (hplugins : plugins.KeepCalm) (hcalm : facilities.outbound.sink.IsCalm)
    (hmoves : ∀ move ∈ moves, move.KeepsCalm) :
    let course := watched plugins facilities moves
    (course.loop.map World.unwatched = (ofMoves plugins facilities moves).loop ∧
        course.visits.map Visit.result =
          (ofMoves plugins facilities moves).visits.map Visit.result) ∧
      (∀ n, Life (decide (course.bridge.held = some n)) (received course.log n)) ∧
      (∀ log, log <+: course.log → ∀ m n, Alive log m → Alive log n → m = n) ∧
      (∀ before n succeeded, before ++ [⟨n, .start succeeded⟩] <+: course.log →
        ∀ m, ¬ Alive before m) ∧
      (∀ earlier move later, moves = earlier ++ move :: later → move.replaces → ∀ n,
        ⟨n, .start true⟩ ∈ (watched plugins facilities earlier).log →
          (received (watched plugins facilities (earlier ++ [move])).log n).count .shutdown = 1 ∧
            (received course.log n).count .shutdown = 1) := by
  have hnew : (watched plugins facilities []).loop.world.Reached .new := ⟨hcalm, .refl _⟩
  have hreached {moves : List (Move κ σ)} (hmoves : ∀ move ∈ moves, move.KeepsCalm) :
      (watched plugins facilities moves).loop.world.Reached .new :=
    reached_append hplugins hnew hmoves
  have hpath := (hreached hmoves).path
  refine ⟨unwatched_ofMoves plugins facilities moves, hpath.life, fun log hlog m n hm hn => ?_,
    fun before n succeeded hlog m => hpath.not_alive_start hlog, ?_⟩
  · obtain ⟨l, hmoment, rfl⟩ := hpath.of_prefix hlog
    exact Option.some.inj ((hmoment.alive_iff.mp hm).symm.trans (hmoment.alive_iff.mp hn))
  · rintro earlier move later rfl hreplaces n hstart
    obtain ⟨hearlier, hmore⟩ := List.forall_mem_append.mp hmoves
    obtain ⟨hmove, hlater⟩ := List.forall_mem_cons.mp hmore
    have hcount {later : List (Move κ σ)} (hlater : ∀ move ∈ later, move.KeepsCalm) :=
      count_shutdown hplugins (hreached hearlier) hmove hreplaces hlater hstart
    have hnow := hcount (List.forall_mem_nil _)
    have hall := hcount hlater
    rw [List.append_nil] at hnow
    rw [List.append_assoc, List.singleton_append] at hall
    exact ⟨hnow, hall⟩

/-- Plugins that are named by their mimetype: of one there is none, one does not start, one panics
as it is started and one as it is shut down; commands are rejected, and responses panic. -/
def moody : Plugins Unit String Unit where
  load mimetype :=
    return if mimetype = "none" then .error (.load mimetype "none") else .ok mimetype
  start plugin :=
    if plugin = "idle" then return .error (.init "idle")
    else if plugin = "broken" then Turn.panic
    else return .ok ()
  name plugin _ := plugin
  onCall direction _ colony id payload := do
    let _ ← Facilities.sendFor direction colony id payload
    match direction with
    | .command  => return .error (.call payload)
    | .response => Turn.panic
  shutdown plugin := if plugin = "fragile" then Turn.panic else return ()

theorem keepCalm_moody : moody.KeepCalm where
  load _ := keepsCalm_pure _
  start plugin := by
    dsimp only [moody]
    split
    · exact keepsCalm_pure _
    split
    · exact keepsCalm_panic
    · exact keepsCalm_pure _
  onCall direction _ colony id payload := by
    refine (keepsCalm_sendFor direction colony id payload).bind fun _ => ?_
    cases direction with
    | command => exact keepsCalm_pure _
    | response => exact keepsCalm_panic
  shutdown plugin := by
    dsimp only [moody]
    split
    · exact keepsCalm_panic
    · exact keepsCalm_pure _

/-- Behind plugins that do not start, one that panics as it is shut down in a request, and a sink
that fails at first: the request that let go of it loads none, and the next one does. -/
theorem lifecycle_moody :
    let sink : Sink := { Sink.unlimited with plan := [.failed "closed", .upTo 0] }
    let facilities : Facilities Unit := ⟨.empty, ⟨sink, .largest⟩, ()⟩
    let create (mimetype : String) : Move Unit Unit := .dispatch (.create mimetype)
    let before := [create "none", create "idle", create "broken", create "fragile",
      .dispatch (.command ⟨1⟩ ⟨2⟩ "x"), .dispatch (.response ⟨1⟩ ⟨3⟩ "y")]
    let later := [create "a", create "a", .shutdown]
    let moves := before ++ create "a" :: later
    let course := watched moody facilities moves
    facilities.outbound.sink.IsCalm ∧ (∀ move ∈ moves, move.KeepsCalm) ∧
      course.log = [⟨0, .start false⟩, ⟨1, .start false⟩, ⟨2, .start true⟩,
        ⟨2, .onCall .command ⟨1⟩ ⟨2⟩ "x"⟩, ⟨2, .onCall .response ⟨1⟩ ⟨3⟩ "y"⟩, ⟨2, .shutdown⟩,
        ⟨3, .start true⟩, ⟨3, .shutdown⟩, ⟨4, .start true⟩, ⟨4, .shutdown⟩] ∧
      course.loop.map World.unwatched = (ofMoves moody facilities moves).loop ∧
      (∀ n, Life (decide (course.bridge.held = some n)) (received course.log n)) ∧
      (received (watched moody facilities (before ++ [create "a"])).log 2).count .shutdown = 1 := by
  intro sink facilities create before later moves course
  have hcalm : facilities.outbound.sink.IsCalm := by
    simp [facilities, sink, Sink.IsCalm]
  have hmoves : ∀ move ∈ moves, move.KeepsCalm := by
    simp [moves, before, later, create, Move.KeepsCalm]
  have hstart : ⟨2, .start true⟩ ∈ (watched moody facilities before).log := by decide +kernel
  obtain ⟨⟨hsame, -⟩, hlives, -, -, hcount⟩ := lifecycle keepCalm_moody hcalm hmoves
  exact ⟨hcalm, hmoves, by decide +kernel, hsame, hlives,
    (hcount before (create "a") later rfl rfl 2 hstart).1⟩

end Course

end NativeMessaging.Host
