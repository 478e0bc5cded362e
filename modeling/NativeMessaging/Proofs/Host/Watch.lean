import NativeMessaging.Proofs.Host.Course
import NativeMessaging.Proofs.Host.Deed

/-!
# Host — plugins that are watched

What plugins receive cannot be read off the bridge, and two that are loaded may be equal.  *Watched*
plugins are the same plugins, each with the number under which it was loaded; beside their own part
of the facilities stands a log of what they received, whether that returned or panicked.

* `Plugins.watched`: the plugins, watched.
* `Turn.Shows`: two turns of which one is the other, seen through a function of the world.
* `Course.unwatched_ofMoves`: watching changes nothing in any course.
-/

namespace NativeMessaging.Host

variable {κ π σ ω ω' α β α' β' : Type}

/-! ### Plugins with numbers, and what they received -/

/-- A plugin, and the number under which it was loaded. -/
structure Instance (π : Type) where
  number : Nat
  plugin : π

/-- What a plugin can receive; a start succeeds or not. -/
inductive Method where
  | start (succeeded : Bool)
  | onCall (direction : Direction) (colony : ColonyId) (id : MessageId) (payload : String)
  | shutdown
  deriving DecidableEq, Repr

/-- An instance received something, which has ended. -/
structure Receipt where
  number : Nat
  method : Method
  deriving DecidableEq, Repr

/-- How many plugins have been loaded, what they received, and their own part of the facilities. -/
structure Watch (σ : Type) where
  loaded : Nat
  log : List Receipt
  own : σ

/-- The facilities without the log. -/
def Facilities.unwatched (facilities : Facilities (Watch σ)) : Facilities σ :=
  ⟨facilities.table, facilities.outbound, facilities.own.own⟩

/-- The facilities with an empty log. -/
def Facilities.watched (facilities : Facilities σ) : Facilities (Watch σ) :=
  ⟨facilities.table, facilities.outbound, ⟨0, [], facilities.own⟩⟩

/-- The world without the numbers and the log. -/
def World.unwatched (world : World (Instance π) (Watch σ)) : World π σ :=
  ⟨⟨world.bridge.plugin.map Instance.plugin, world.bridge.state⟩, world.facilities.unwatched⟩

/-- A turn that does not see the log. -/
def Turn.watched (turn : Turn κ (Facilities σ) α) : Turn κ (Facilities (Watch σ)) α :=
  turn.within Facilities.unwatched fun inner facilities =>
    ⟨inner.table, inner.outbound, { facilities.own with own := inner.own }⟩

/-- A turn that an instance receives: it is written down when it returns or panics. -/
def Turn.noted (number : Nat) (method : Except Panic α → Method)
    (turn : Turn κ (Facilities σ) α) : Turn κ (Facilities (Watch σ)) α :=
  Turn.ofScene fun scene =>
    let (result, scene) := turn.watched.on scene
    let own := scene.world.own
    let log := own.log ++ [⟨number, method result⟩]
    (result, { scene with world := { scene.world with own := { own with log := log } } })

/-- A start that ended so. -/
def Method.ofStart : Except Panic (Except PluginError Unit) → Method
  | .ok (.ok ()) => .start true
  | _            => .start false

/-- The number under which the next plugin is loaded. -/
def Watch.number : Turn κ (Facilities (Watch σ)) Nat :=
  Turn.step fun facilities =>
    let own := facilities.own
    (.ok own.loaded, { facilities with own := { own with loaded := own.loaded + 1 } })

/-- The plugins, watched. -/
def Plugins.watched (plugins : Plugins κ π σ) : Plugins κ (Instance π) (Watch σ) where
  load mimetype := do
    match ← (plugins.load mimetype).watched with
    | .error e   => return .error e
    | .ok plugin => return .ok ⟨← Watch.number, plugin⟩
  start i := (plugins.start i.plugin).noted i.number Method.ofStart
  name i facilities := plugins.name i.plugin facilities.unwatched
  onCall direction i colony id payload :=
    (plugins.onCall direction i.plugin colony id payload).noted i.number fun _ =>
      .onCall direction colony id payload
  shutdown i := (plugins.shutdown i.plugin).noted i.number fun _ => .shutdown

/-- A move with plugins that are watched. -/
def Move.watched : Move κ σ → Move κ (Watch σ)
  | .dispatch message => .dispatch message
  | .shutdown         => .shutdown
  | .elsewhere turn   => .elsewhere turn.watched

/-! ### Turns that are the same, seen through a function -/

/-- The scene with its world seen through a function. -/
def Scene.map (see : ω → ω') (scene : Scene κ ω) : Scene κ ω' :=
  ⟨scene.posted, scene.scheduled, scene.exitRequested, see scene.world⟩

namespace Turn

variable {see : ω → ω'} {give : α → α'} {give' : β → β'}

/-- Seen through a function of the world, and one of the result, the one turn is the other. -/
def Shows (see : ω → ω') (give : α → α') (turn : Turn κ ω α) (turn' : Turn κ ω' α') : Prop :=
  ∀ scene, turn'.on (scene.map see) = ((turn.on scene).1.map give, (turn.on scene).2.map see)

theorem shows_pure (see : ω → ω') (give : α → α') (a : α) :
    Shows see give (pure a : Turn κ ω α) (pure (give a)) := fun _ => rfl

theorem Shows.bind {turn : Turn κ ω α} {turn' : Turn κ ω' α'} {next : α → Turn κ ω β}
    {next' : α' → Turn κ ω' β'} (h : Shows see give turn turn')
    (hnext : ∀ a, Shows see give' (next a) (next' (give a))) :
    Shows see give' (turn >>= next) (turn' >>= next') := by
  intro scene
  rw [on_bind, on_bind, h scene]
  rcases turn.on scene with ⟨e | a, s⟩
  · rfl
  · exact hnext a s

theorem shows_world (see : ω → ω') :
    Shows see see (Turn.world : Turn κ ω ω) Turn.world := fun _ => rfl

theorem shows_modifyWorld {f : ω → ω} {f' : ω' → ω'} (h : ∀ w, f' (see w) = see (f w)) :
    Shows see id (Turn.modifyWorld f : Turn κ ω Unit) (Turn.modifyWorld f') := by
  intro scene
  change (Except.ok (), (⟨_, _, _, f' (see scene.world)⟩ : Scene κ ω')) = _
  rw [h]
  rfl

/-- The log is not seen. -/
theorem shows_watched (turn : Turn κ (Facilities σ) α) :
    Shows Facilities.unwatched id turn.watched turn := by
  intro scene
  rw [Except.map_id]
  rfl

theorem shows_noted (number : Nat) (method : Except Panic α → Method)
    (turn : Turn κ (Facilities σ) α) :
    Shows Facilities.unwatched id (turn.noted number method) turn := shows_watched turn

end Turn

/-! ### The plugins, and the operations of the bridge -/

namespace Plugins

open Turn (Shows)

theorem shows_load (plugins : Plugins κ π σ) (mimetype : String) :
    Shows Facilities.unwatched (Except.map Instance.plugin) (plugins.watched.load mimetype)
      (plugins.load mimetype) := by
  rw [← bind_pure (plugins.load mimetype)]
  refine (Turn.shows_watched _).bind fun loaded => ?_
  cases loaded with
  | error e => exact fun _ => rfl
  | ok plugin => exact fun _ => rfl

theorem shows_start (plugins : Plugins κ π σ) (i : Instance π) :
    Shows Facilities.unwatched id (plugins.watched.start i) (plugins.start i.plugin) :=
  Turn.shows_noted _ _ _

theorem shows_onCall (plugins : Plugins κ π σ) (direction : Direction) (i : Instance π)
    (colony : ColonyId) (id' : MessageId) (payload : String) :
    Shows Facilities.unwatched id (plugins.watched.onCall direction i colony id' payload)
      (plugins.onCall direction i.plugin colony id' payload) := Turn.shows_noted _ _ _

theorem shows_shutdown (plugins : Plugins κ π σ) (i : Instance π) :
    Shows Facilities.unwatched id (plugins.watched.shutdown i) (plugins.shutdown i.plugin) :=
  Turn.shows_noted _ _ _

end Plugins

namespace Bridge

open Turn (Shows shows_pure shows_world)

theorem shows_offering {turn : Turn κ (Facilities (Watch σ)) α} {turn' : Turn κ (Facilities σ) α'}
    {give : α → α'} (h : Shows Facilities.unwatched give turn turn') :
    Shows (World.unwatched (π := π)) give (offering turn) (offering turn') := by
  intro scene
  have hseen : offered (scene.map World.unwatched) = (offered scene).map Facilities.unwatched := rfl
  rw [on_offering, on_offering, hseen, h (offered scene)]
  rfl

theorem shows_setState (state : BridgeState) :
    Shows World.unwatched id (setState state : Turn κ (World (Instance π) (Watch σ)) Unit)
      (setState state) := Turn.shows_modifyWorld fun _ => rfl

theorem shows_setPlugin (plugin : Option (Instance π)) :
    Shows World.unwatched id (setPlugin plugin : Turn κ (World (Instance π) (Watch σ)) Unit)
      (setPlugin (plugin.map Instance.plugin)) := Turn.shows_modifyWorld fun _ => rfl

theorem shows_ack (a : Ack) :
    Shows World.unwatched id (ack a : Turn κ (World (Instance π) (Watch σ)) Unit) (ack a) :=
  (shows_offering (Turn.shows_watched (Facilities.sendAck a))).bind fun _ => shows_pure _ id ()

theorem shows_shutdown (plugins : Plugins κ π σ) :
    Shows World.unwatched id (shutdown plugins.watched) (shutdown plugins) := by
  refine (shows_world _).bind fun world => ?_
  rcases world with ⟨⟨_ | i, state⟩, facilities⟩
  · exact shows_setState _
  · refine (shows_setPlugin none).bind fun _ => ?_
    exact (shows_offering (plugins.shows_shutdown i)).bind fun _ => shows_setState _

theorem shows_load (plugins : Plugins κ π σ) (mimetype : String) :
    Shows Facilities.unwatched (Except.map Instance.plugin) (load plugins.watched mimetype)
      (load plugins mimetype) := by
  refine (plugins.shows_load mimetype).bind fun loaded => ?_
  cases loaded with
  | error e => exact fun _ => rfl
  | ok i =>
      refine (plugins.shows_start i).bind fun started => ?_
      cases started with
      | error e => exact fun _ => rfl
      | ok _ => exact fun _ => rfl

theorem shows_install (plugins : Plugins κ π σ) (mimetype : String) :
    Shows World.unwatched id (install plugins.watched mimetype) (install plugins mimetype) := by
  refine (shows_offering (shows_load plugins mimetype)).bind fun loaded => ?_
  cases loaded with
  | error e => exact (shows_ack _).bind fun _ => shows_setState _
  | ok i =>
      exact (shows_world _).bind fun _ => (shows_ack _).bind fun _ =>
        (shows_setPlugin (some i)).bind fun _ => shows_setState _

theorem shows_dispatch (plugins : Plugins κ π σ) (message : Message) :
    Shows World.unwatched id (dispatch plugins.watched message) (dispatch plugins message) := by
  have hforward (direction : Direction) (colony : ColonyId) (id' : MessageId) (payload : String) :
      Shows World.unwatched id (forward plugins.watched direction colony id' payload)
        (forward plugins direction colony id' payload) := by
    refine (shows_world _).bind fun world => ?_
    rcases world with ⟨⟨_ | i, state⟩, facilities⟩
    · exact shows_ack _
    · exact (shows_offering (plugins.shows_onCall direction i colony id' payload)).bind
        fun _ => shows_pure _ id ()
  cases message with
  | create mimetype =>
      rw [dispatch, dispatch, create_eq, create_eq]
      refine (shows_world _).bind fun world => ?_
      rcases world with ⟨⟨_ | i, state⟩, facilities⟩
      · exact shows_install plugins mimetype
      · exact (shows_shutdown plugins).bind fun _ => shows_install plugins mimetype
  | command colony id' payload => exact hforward .command colony id' payload
  | response colony id' payload => exact hforward .response colony id' payload
  | error description => exact shows_ack _

end Bridge

theorem Move.shows_turn (plugins : Plugins κ π σ) (move : Move κ σ) :
    Turn.Shows World.unwatched id (move.watched.turn plugins.watched) (move.turn plugins) := by
  cases move with
  | dispatch message => exact Bridge.shows_dispatch plugins message
  | shutdown => exact Bridge.shows_shutdown plugins
  | elsewhere turn => exact Bridge.shows_offering (Turn.shows_watched turn)

/-! ### Courses -/

/-- The loop with its world seen through a function. -/
def Loop.map (see : ω → ω') (loop : Loop κ ω) : Loop κ ω' :=
  ⟨loop.inbound, loop.calls, loop.exitRequested, see loop.world⟩

theorem Turn.Shows.perform {see : ω → ω'} {give : α → α'} {turn : Turn κ ω α}
    {turn' : Turn κ ω' α'} (h : Turn.Shows see give turn turn') (loop : Loop κ ω) :
    (loop.map see).perform turn' =
      ((loop.perform turn).1.map give, (loop.perform turn).2.map see) := by
  have hscene : (loop.map see).scene = loop.scene.map see := rfl
  rw [Loop.perform, hscene, h loop.scene]
  rfl

namespace Course

/-- The course of some moves with a new bridge, whose plugins are watched. -/
def watched (plugins : Plugins κ π σ) (facilities : Facilities σ) (moves : List (Move κ σ)) :
    Course κ (Instance π) (Watch σ) :=
  ofMoves plugins.watched facilities.watched (moves.map Move.watched)

/-- What the plugins of a course received. -/
def log (course : Course κ (Instance π) (Watch σ)) : List Receipt :=
  course.loop.world.facilities.own.log

theorem watched_concat (plugins : Plugins κ π σ) (facilities : Facilities σ)
    (moves : List (Move κ σ)) (move : Move κ σ) :
    watched plugins facilities (moves ++ [move]) =
      (watched plugins facilities moves).next plugins.watched move.watched := by
  rw [watched, List.map_append, List.map_singleton, ofMoves_concat, watched]

/-- **Watching changes nothing**: not the loop, and not what the moves come to. -/
theorem unwatched_ofMoves (plugins : Plugins κ π σ) (facilities : Facilities σ)
    (moves : List (Move κ σ)) :
    (watched plugins facilities moves).loop.map World.unwatched =
        (ofMoves plugins facilities moves).loop ∧
      (watched plugins facilities moves).visits.map Visit.result =
        (ofMoves plugins facilities moves).visits.map Visit.result := by
  induction moves using List.reverseRecOn with
  | nil => exact ⟨rfl, rfl⟩
  | append_singleton moves move ih =>
      obtain ⟨hloop, hvisits⟩ := ih
      have hmove := (Move.shows_turn plugins move).perform (watched plugins facilities moves).loop
      rw [hloop, Except.map_id] at hmove
      rw [watched_concat, ofMoves_concat]
      refine ⟨congrArg Prod.snd hmove.symm, ?_⟩
      rw [next, next, hmove]
      dsimp only
      rw [List.map_append, List.map_append, hvisits]
      rfl

end Course

end NativeMessaging.Host
