import NativeMessaging.Host.Session
import NativeMessaging.Proofs.Host.Calm
import NativeMessaging.Proofs.Host.Watch

/-!
# Host — what became of an ack does not matter

Facilities are *alike* when they differ in the way out only, and neither sink panics.  Turns
*coincide* when, on scenes with alike facilities, they have the same result and leave such scenes
again; a turn that coincides with itself is heedless of the way out.

* `Turn.Coincide`: turns that coincide, and the rules for parts of them.
* `Bridge.heedless_ack`: an ack coincides with itself, whatever becomes of it.
* `Plugins.Heedless`: plugins whose turns are heedless; `Service.heedless_plugins`: those that are
  processes of their own.
* `Course.heedless`: with such plugins, the way out changes nothing in any course.
-/

namespace NativeMessaging.Host

variable {κ π σ ω α β : Type}

/-! ### Alike -/

/-- The facilities differ in the way out only, and neither sink panics. -/
structure Facilities.Alike (facilities facilities' : Facilities σ) : Prop where
  table : facilities.table = facilities'.table
  own : facilities.own = facilities'.own
  calm : facilities.IsCalm
  calm' : facilities'.IsCalm

/-- The bridges are the same, and the facilities are alike. -/
structure World.Alike (world world' : World π σ) : Prop where
  bridge : world.bridge = world'.bridge
  facilities : world.facilities.Alike world'.facilities

/-- The scenes differ in the world only, and the worlds are related. -/
structure Scene.Alike (related : ω → ω → Prop) (scene scene' : Scene κ ω) : Prop where
  posted : scene.posted = scene'.posted
  scheduled : scene.scheduled = scene'.scheduled
  exitRequested : scene.exitRequested = scene'.exitRequested
  world : related scene.world scene'.world

/-- The loops differ in the world only, and the worlds are related. -/
structure Loop.Alike (related : ω → ω → Prop) (loop loop' : Loop κ ω) : Prop where
  inbound : loop.inbound = loop'.inbound
  calls : loop.calls = loop'.calls
  exitRequested : loop.exitRequested = loop'.exitRequested
  world : related loop.world loop'.world

/-! ### Turns that coincide -/

namespace Turn

variable {related : ω → ω → Prop}

/-- On alike scenes the turns have the same result, a panic included, and leave alike scenes. -/
def Coincide (related : ω → ω → Prop) (turn turn' : Turn κ ω α) : Prop :=
  ∀ scene scene', scene.Alike related scene' →
    (turn.on scene).1 = (turn'.on scene').1 ∧ (turn.on scene).2.Alike related (turn'.on scene').2

/-- The turn coincides with itself. -/
abbrev Heedless (turn : Turn κ ω α) (related : ω → ω → Prop) : Prop := Coincide related turn turn

theorem heedless_pure (related : ω → ω → Prop) (a : α) :
    (pure a : Turn κ ω α).Heedless related := fun _ _ h => ⟨rfl, h⟩

theorem Coincide.bind {turn turn' : Turn κ ω α} {next next' : α → Turn κ ω β}
    (h : Coincide related turn turn') (hnext : ∀ a, Coincide related (next a) (next' a)) :
    Coincide related (turn >>= next) (turn' >>= next') := by
  intro scene scene' halike
  obtain ⟨hresult, hscene⟩ := h scene scene' halike
  rw [on_bind, on_bind]
  rcases hrun : turn.on scene with ⟨r, s⟩
  rcases hrun' : turn'.on scene' with ⟨r', s'⟩
  rw [hrun, hrun'] at hresult hscene
  obtain rfl : r = r' := hresult
  cases r with
  | error e => exact ⟨rfl, hscene⟩
  | ok a => exact hnext a s s' hscene

/-- Turns that look at the world coincide where they do so whatever they see. -/
theorem Coincide.world {next next' : ω → Turn κ ω β}
    (h : ∀ w w', related w w' → Coincide related (next w) (next' w')) :
    Coincide related (Turn.world >>= next) (Turn.world >>= next') := by
  intro scene scene' halike
  rw [on_bind, on_bind]
  exact h _ _ halike.world scene scene' halike

theorem coincide_modifyWorld {f f' : ω → ω} (h : ∀ w w', related w w' → related (f w) (f' w')) :
    Coincide related (Turn.modifyWorld f : Turn κ ω Unit) (Turn.modifyWorld f') :=
  fun _ _ halike => ⟨rfl, halike.posted, halike.scheduled, halike.exitRequested,
    h _ _ halike.world⟩

theorem heedless_exitRequested : (Turn.exitRequested : Turn κ ω Bool).Heedless related :=
  fun _ _ halike => ⟨congrArg Except.ok halike.exitRequested, halike⟩

theorem heedless_schedule (call : κ) :
    (Turn.schedule call : Turn κ ω Unit).Heedless related :=
  fun _ _ halike => ⟨rfl, halike.posted, congrArg (· ++ [call]) halike.scheduled,
    halike.exitRequested, halike.world⟩

/-- On alike scenes the turns return, whatever their results are, and leave alike scenes. -/
def Return (related : ω → ω → Prop) (turn turn' : Turn κ ω α) : Prop :=
  ∀ scene scene', scene.Alike related scene' → ∃ a a' after after',
    turn.on scene = (.ok a, after) ∧ turn'.on scene' = (.ok a', after') ∧
      after.Alike related after'

/-- Turns that return may be dropped: where nothing is made of their results, what matters is behind
them. -/
theorem Return.drop {turn turn' : Turn κ ω α} {next next' : Turn κ ω β}
    (h : Return related turn turn') (hnext : Coincide related next next') :
    Coincide related (turn >>= fun _ => next) (turn' >>= fun _ => next') := by
  intro scene scene' halike
  obtain ⟨a, a', after, after', hrun, hrun', hafter⟩ := h scene scene' halike
  rw [on_bind, on_bind, hrun, hrun']
  exact hnext after after' hafter

theorem Return.map {turn turn' : Turn κ ω α} (h : Return related turn turn') (f : α → β) :
    Return related (do return f (← turn)) (do return f (← turn')) := by
  intro scene scene' halike
  obtain ⟨a, a', after, after', hrun, hrun', hafter⟩ := h scene scene' halike
  refine ⟨f a, f a', after, after', ?_, ?_, hafter⟩
  · rw [on_bind, hrun]
    rfl
  · rw [on_bind, hrun']
    rfl

end Turn

open Turn (Coincide Return heedless_pure)

/-! ### What is written -/

namespace Facilities

/-- A writing that returns for a calm sink, and leaves it calm. -/
def Writes (f : Outbound → Written Frame.Error × Outbound) : Prop :=
  ∀ outbound : Outbound, outbound.sink.IsCalm → ∃ result outbound',
    outbound'.sink.IsCalm ∧ f outbound = (.ok result, outbound')

theorem on_writing {f : Outbound → Written Frame.Error × Outbound} {scene : Scene κ (Facilities σ)}
    {result : Written Frame.Error} {outbound : Outbound}
    (h : f scene.world.outbound = (result, outbound)) :
    (writing f).on scene =
      (result, { scene with world := { scene.world with outbound := outbound } }) := by
  change ((f scene.world.outbound).1, _) = _
  rw [h]

theorem return_writing {f : Outbound → Written Frame.Error × Outbound} (h : Writes f) :
    Return Alike (writing f : Turn κ (Facilities σ) _) (writing f) := by
  intro scene scene' halike
  obtain ⟨result, outbound, hcalm, hrun⟩ := h scene.world.outbound halike.world.calm
  obtain ⟨result', outbound', hcalm', hrun'⟩ := h scene'.world.outbound halike.world.calm'
  exact ⟨result, result', _, _, on_writing hrun, on_writing hrun', halike.posted, halike.scheduled,
    halike.exitRequested, halike.world.table, halike.world.own, hcalm, hcalm'⟩

theorem writes_sendAck (a : Ack) : Writes (·.sendAck a) :=
  fun _ h => Outbound.exists_write_calm h [a.print]

theorem writes_send (colony : ColonyId) (id : MessageId) (direction : Direction)
    (payload : String) : Writes (·.send colony id direction payload) := by
  intro outbound h
  dsimp only
  rw [Outbound.send]
  cases outbound.chunker.encode colony id direction payload with
  | error e => exact ⟨.error e, outbound, h, rfl⟩
  | ok texts => exact Outbound.exists_write_calm h texts

/-- **Whether a text could be sent for a plugin** is all that differs. -/
theorem return_sendFor (direction : Direction) (colony : ColonyId) (id : MessageId)
    (payload : String) :
    Return Alike (sendFor direction colony id payload : Turn κ (Facilities σ) _)
      (sendFor direction colony id payload) :=
  (return_writing (writes_send colony id direction payload)).map (Except.mapError HostError.write)

theorem heedless_scheduleFor (call : κ) :
    (scheduleFor call : Turn κ (Facilities σ) _).Heedless Alike :=
  Turn.heedless_exitRequested.bind fun exit => by
    cases exit with
    | true => exact heedless_pure _ _
    | false => exact (Turn.heedless_schedule call).bind fun _ => heedless_pure _ _

end Facilities

/-! ### The operations of the bridge -/

namespace Bridge

theorem coincide_offering {turn turn' : Turn κ (Facilities σ) α}
    (h : Coincide Facilities.Alike turn turn') :
    Coincide (World.Alike (π := π)) (offering turn) (offering turn') := by
  intro scene scene' halike
  obtain ⟨hresult, hscene⟩ := h (offered scene) (offered scene')
    ⟨halike.posted, halike.scheduled, halike.exitRequested, halike.world.facilities⟩
  rw [on_offering, on_offering]
  exact ⟨hresult, hscene.posted, hscene.scheduled, hscene.exitRequested, halike.world.bridge,
    hscene.world⟩

/-- **An ack coincides with itself**, whatever becomes of it. -/
theorem heedless_ack (a : Ack) : (ack a : Turn κ (World π σ) Unit).Heedless World.Alike := by
  have hdrop : Coincide Facilities.Alike (Facilities.sendAck a >>= fun _ => pure ())
      (Facilities.sendAck a >>= fun _ => pure () : Turn κ (Facilities σ) Unit) :=
    (Facilities.return_writing (Facilities.writes_sendAck a)).drop (heedless_pure _ ())
  have h := coincide_offering (π := π) hdrop
  rw [offering_bind] at h
  exact h

theorem heedless_setState (state : BridgeState) :
    (setState state : Turn κ (World π σ) Unit).Heedless World.Alike :=
  Turn.coincide_modifyWorld fun _ _ h => ⟨by rw [h.bridge], h.facilities⟩

theorem heedless_setPlugin (plugin : Option π) :
    (setPlugin plugin : Turn κ (World π σ) Unit).Heedless World.Alike :=
  Turn.coincide_modifyWorld fun _ _ h => ⟨by rw [h.bridge], h.facilities⟩

end Bridge

/-- Plugins whose turns are heedless of the way out, and whose names do not depend on it. -/
structure Plugins.Heedless (plugins : Plugins κ π σ) : Prop where
  load (mimetype : String) : (plugins.load mimetype).Heedless Facilities.Alike
  start (plugin : π) : (plugins.start plugin).Heedless Facilities.Alike
  name (plugin : π) (facilities facilities' : Facilities σ) (h : facilities.Alike facilities') :
    plugins.name plugin facilities = plugins.name plugin facilities'
  onCall (direction : Direction) (plugin : π) (colony : ColonyId) (id : MessageId)
    (payload : String) :
    (plugins.onCall direction plugin colony id payload).Heedless Facilities.Alike
  shutdown (plugin : π) :
    (plugins.shutdown plugin).Heedless Facilities.Alike

namespace Bridge

variable {plugins : Plugins κ π σ}

theorem heedless_shutdown (h : plugins.Heedless) :
    (shutdown plugins).Heedless World.Alike := by
  refine Turn.Coincide.world fun world world' halike => ?_
  rw [← halike.bridge]
  cases world.bridge.plugin with
  | none => exact heedless_setState _
  | some plugin =>
      refine (heedless_setPlugin none).bind fun _ => ?_
      exact (coincide_offering (h.shutdown plugin)).bind fun _ => heedless_setState _

theorem heedless_load (h : plugins.Heedless) (mimetype : String) :
    (load plugins mimetype).Heedless Facilities.Alike := by
  refine (h.load mimetype).bind fun loaded => ?_
  cases loaded with
  | error e => exact heedless_pure _ _
  | ok plugin =>
      refine (h.start plugin).bind fun started => ?_
      cases started with
      | error e => exact heedless_pure _ _
      | ok _ => exact heedless_pure _ _

theorem heedless_install (h : plugins.Heedless) (mimetype : String) :
    (install plugins mimetype).Heedless World.Alike := by
  refine (coincide_offering (heedless_load h mimetype)).bind fun loaded => ?_
  cases loaded with
  | error e => exact (heedless_ack _).bind fun _ => heedless_setState _
  | ok plugin =>
      refine Turn.Coincide.world fun world world' halike => ?_
      rw [h.name plugin _ _ halike.facilities]
      exact (heedless_ack _).bind fun _ => (heedless_setPlugin _).bind fun _ => heedless_setState _

theorem heedless_forward (h : plugins.Heedless) (direction : Direction) (colony : ColonyId)
    (id : MessageId) (payload : String) :
    (forward plugins direction colony id payload).Heedless World.Alike := by
  refine Turn.Coincide.world fun world world' halike => ?_
  rw [← halike.bridge]
  cases world.bridge.plugin with
  | none => exact heedless_ack _
  | some plugin =>
      exact (coincide_offering (h.onCall direction plugin colony id payload)).bind
        fun _ => heedless_pure _ _

theorem heedless_dispatch (h : plugins.Heedless) (message : Message) :
    (dispatch plugins message).Heedless World.Alike := by
  cases message with
  | create mimetype =>
      rw [dispatch, create_eq]
      refine Turn.Coincide.world fun world world' halike => ?_
      rw [← halike.bridge]
      cases world.bridge.plugin.isSome with
      | true => exact (heedless_shutdown h).bind fun _ => heedless_install h mimetype
      | false => exact heedless_install h mimetype
  | command colony id payload => exact heedless_forward h .command colony id payload
  | response colony id payload => exact heedless_forward h .response colony id payload
  | error description => exact heedless_ack _

end Bridge

/-! ### Plugins that are watched -/

theorem Turn.heedless_watched {turn : Turn κ (Facilities σ) α}
    (h : turn.Heedless Facilities.Alike) : turn.watched.Heedless Facilities.Alike := by
  intro scene scene' halike
  have hown : scene.world.unwatched.Alike scene'.world.unwatched :=
    ⟨halike.world.table, congrArg Watch.own halike.world.own, halike.world.calm, halike.world.calm'⟩
  obtain ⟨hresult, hscene⟩ := h
    ⟨scene.posted, scene.scheduled, scene.exitRequested, scene.world.unwatched⟩
    ⟨scene'.posted, scene'.scheduled, scene'.exitRequested, scene'.world.unwatched⟩
    ⟨halike.posted, halike.scheduled, halike.exitRequested, hown⟩
  exact ⟨hresult, hscene.posted, hscene.scheduled, hscene.exitRequested, hscene.world.table,
    congrArg₂ (fun (w : Watch σ) own => { w with own := own }) halike.world.own hscene.world.own,
    hscene.world.calm, hscene.world.calm'⟩

theorem Turn.heedless_noted {turn : Turn κ (Facilities σ) α} (h : turn.Heedless Facilities.Alike)
    (number : Nat) (method : Except Panic α → Method) :
    (turn.noted number method).Heedless Facilities.Alike := by
  intro scene scene' halike
  obtain ⟨hresult, hscene⟩ := heedless_watched h scene scene' halike
  exact ⟨hresult, hscene.posted, hscene.scheduled, hscene.exitRequested, hscene.world.table,
    congrArg₂ (fun (w : Watch σ) r =>
        { w with log := w.log ++ [(⟨number, method r⟩ : Receipt)] })
      hscene.world.own hresult,
    hscene.world.calm, hscene.world.calm'⟩

theorem Watch.heedless_number :
    (Watch.number : Turn κ (Facilities (Watch σ)) Nat).Heedless Facilities.Alike := by
  intro scene scene' halike
  have hown := halike.world.own
  exact ⟨congrArg (fun w : Watch σ => (Except.ok w.loaded : Except Panic Nat)) hown,
    halike.posted, halike.scheduled, halike.exitRequested, halike.world.table,
    congrArg (fun w : Watch σ => { w with loaded := w.loaded + 1 }) hown,
    halike.world.calm, halike.world.calm'⟩

/-- Plugins are as heedless when they are watched. -/
theorem Plugins.Heedless.watched {plugins : Plugins κ π σ} (h : plugins.Heedless) :
    plugins.watched.Heedless where
  load mimetype := by
    refine (Turn.heedless_watched (h.load mimetype)).bind fun loaded => ?_
    cases loaded with
    | error e => exact heedless_pure _ _
    | ok plugin => exact Watch.heedless_number.bind fun _ => heedless_pure _ _
  start i := Turn.heedless_noted (h.start i.plugin) i.number Method.ofStart
  name i facilities facilities' halike :=
    h.name i.plugin _ _
      ⟨halike.table, congrArg Watch.own halike.own, halike.calm, halike.calm'⟩
  onCall direction i colony id payload :=
    Turn.heedless_noted (h.onCall direction i.plugin colony id payload) i.number _
  shutdown i := Turn.heedless_noted (h.shutdown i.plugin) i.number _

/-! ### Courses -/

/-- A move that is heedless of the way out, beside what the plugins do. -/
def Move.Heedless : Move κ σ → Prop
  | .elsewhere turn => turn.Heedless Facilities.Alike
  | _               => True

theorem Move.heedless_turn {plugins : Plugins κ π σ} (h : plugins.Heedless) {move : Move κ σ}
    (hmove : move.Heedless) : (move.turn plugins).Heedless World.Alike := by
  cases move with
  | dispatch message => exact Bridge.heedless_dispatch h message
  | shutdown => exact Bridge.heedless_shutdown h
  | elsewhere turn => exact Bridge.coincide_offering hmove

theorem Move.Heedless.watched {move : Move κ σ} (h : move.Heedless) : move.watched.Heedless := by
  cases move with
  | dispatch message => trivial
  | shutdown => trivial
  | elsewhere turn => exact Turn.heedless_watched h

theorem Turn.Coincide.perform {related : ω → ω → Prop} {turn turn' : Turn κ ω α}
    (h : Coincide related turn turn') {loop loop' : Loop κ ω} (halike : loop.Alike related loop') :
    (loop.perform turn).1 = (loop'.perform turn').1 ∧
      (loop.perform turn).2.Alike related (loop'.perform turn').2 := by
  obtain ⟨hresult, hscene⟩ := h loop.scene loop'.scene
    ⟨rfl, rfl, halike.exitRequested, halike.world⟩
  refine ⟨hresult, ?_, ?_, ?_, hscene.world⟩
  · exact congrArg₂ (· ++ ·) halike.inbound hscene.posted
  · exact congrArg₂ (· ++ ·) halike.calls hscene.scheduled
  · exact congrArg₂ (· || ·) halike.exitRequested hscene.exitRequested

namespace Course

/-- Courses of the same moves whose loops are alike, with the same results of the moves. -/
structure Alike (course course' : Course κ π σ) : Prop where
  results : course.visits.map Visit.result = course'.visits.map Visit.result
  loop : course.loop.Alike World.Alike course'.loop

/-- **One move.** -/
theorem Alike.next {plugins : Plugins κ π σ} (hplugins : plugins.Heedless)
    {course course' : Course κ π σ} (h : course.Alike course') {move : Move κ σ}
    (hmove : move.Heedless) : (course.next plugins move).Alike (course'.next plugins move) := by
  obtain ⟨hresult, hloop⟩ := (Move.heedless_turn hplugins hmove).perform h.loop
  refine ⟨?_, hloop⟩
  rw [Course.next, Course.next, List.map_append, List.map_append, h.results]
  exact congrArg (fun r => _ ++ [r]) hresult

/-- **Every course.** -/
theorem alike_ofMoves {plugins : Plugins κ π σ} (hplugins : plugins.Heedless)
    {facilities facilities' : Facilities σ} (h : facilities.Alike facilities')
    {moves : List (Move κ σ)} (hmoves : ∀ move ∈ moves, move.Heedless) :
    (ofMoves plugins facilities moves).Alike (ofMoves plugins facilities' moves) := by
  induction moves using List.reverseRecOn with
  | nil => exact ⟨rfl, rfl, rfl, rfl, rfl, h⟩
  | append_singleton moves move ih =>
      rw [List.forall_mem_append] at hmoves
      rw [ofMoves_concat, ofMoves_concat]
      exact (ih hmoves.1).next hplugins (List.forall_mem_singleton.mp hmoves.2)

/-- **What became of an ack does not matter.**  With plugins that are heedless of the way out, two
ways out whose sinks do not panic make no difference to any course: after every move the bridges are
the same, the move came to the same result, and the plugins have received the same. -/
theorem heedless {plugins : Plugins κ π σ} (hplugins : plugins.Heedless)
    {facilities facilities' : Facilities σ} (h : facilities.Alike facilities')
    {moves : List (Move κ σ)} (hmoves : ∀ move ∈ moves, move.Heedless) :
    ∀ made, made <+: moves →
      (ofMoves plugins facilities made).bridge = (ofMoves plugins facilities' made).bridge ∧
      (ofMoves plugins facilities made).visits.map Visit.result =
        (ofMoves plugins facilities' made).visits.map Visit.result ∧
      (watched plugins facilities made).bridge = (watched plugins facilities' made).bridge ∧
      (watched plugins facilities made).log = (watched plugins facilities' made).log := by
  intro made hmade
  have hmoves' : ∀ move ∈ made, move.Heedless := fun move hmove => hmoves move (hmade.mem hmove)
  have halike := alike_ofMoves hplugins h hmoves'
  have hwatched : (watched plugins facilities made).Alike (watched plugins facilities' made) := by
    refine alike_ofMoves hplugins.watched
      ⟨h.table, congrArg (fun own => (⟨0, [], own⟩ : Watch σ)) h.own, h.calm, h.calm'⟩
      fun move hmove => ?_
    obtain ⟨move, hmem, rfl⟩ := List.mem_map.mp hmove
    exact (hmoves' move hmem).watched
  exact ⟨halike.loop.world.bridge, halike.results, hwatched.loop.world.bridge,
    congrArg Watch.log hwatched.loop.world.facilities.own⟩

/-- A plugin that sends a text whenever it is started or called, and does not ask what became of
it. -/
def talkative : Plugins Unit Unit Unit where
  load _ := return .ok ()
  start _ := do
    let _ ← Facilities.sendFor .command ⟨7⟩ ⟨1⟩ "hello"
    return .ok ()
  name _ _ := "A"
  onCall _ _ colony id payload := do
    let _ ← Facilities.sendFor .response colony id payload
    return .ok ()
  shutdown _ := return ()

theorem heedless_talkative : talkative.Heedless where
  load _ := heedless_pure _ _
  start _ := (Facilities.return_sendFor .command ⟨7⟩ ⟨1⟩ "hello").drop (heedless_pure _ _)
  name _ _ _ _ := rfl
  onCall _ _ colony id payload :=
    (Facilities.return_sendFor .response colony id payload).drop (heedless_pure _ _)
  shutdown _ := heedless_pure _ _

/-- A sink that fails, takes nothing, takes little and fills up, and refuses its first flush. -/
def troubled : Sink :=
  ⟨[.failed "broken pipe", .upTo 0, .interrupted, .upTo 3], some 5, some 40, some "full", none, [],
    [some "stuck"]⟩

/-- A request, calls with and without a plugin, and a shutdown. -/
def visited : List (Move Unit Unit) :=
  [.dispatch (.command ⟨7⟩ ⟨1⟩ "a"), .dispatch (.create "application/x-a"),
    .dispatch (.command ⟨7⟩ ⟨2⟩ "b"), .shutdown, .dispatch (.error "bad")]

/-- Facilities of which only the way out matters. -/
def through (sink : Sink) : Facilities Unit := ⟨.empty, ⟨sink, .largest⟩, ()⟩

/-- Through that sink and through one that takes everything: other bytes, and the same course. -/
theorem heedless_troubled :
    talkative.Heedless ∧ (through troubled).Alike (through .unlimited) ∧
      (∀ move ∈ visited, move.Heedless) ∧
      (ofMoves talkative (through troubled) visited).loop.world.facilities.outbound.sink.written ≠
        (ofMoves talkative (through .unlimited) visited
          ).loop.world.facilities.outbound.sink.written ∧
      (ofMoves talkative (through troubled) visited).bridge =
        (ofMoves talkative (through .unlimited) visited).bridge ∧
      (watched talkative (through troubled) visited).log =
        (watched talkative (through .unlimited) visited).log := by
  have halike : (through troubled).Alike (through .unlimited) :=
    ⟨rfl, rfl, (by decide : .panics ∉ troubled.plan), List.not_mem_nil⟩
  have hmoves : ∀ move ∈ visited, move.Heedless := by simp [visited, Move.Heedless]
  obtain ⟨hbridge, -, -, hlog⟩ :=
    heedless heedless_talkative halike hmoves visited List.prefix_rfl
  exact ⟨heedless_talkative, halike, hmoves, by decide +kernel, hbridge, hlog⟩

end Course

/-! ### Plugin processes -/

namespace Service

theorem heedless_running : running.Heedless Facilities.Alike :=
  Turn.Coincide.world fun facilities facilities' h => by
    rw [h.own]
    exact heedless_pure _ _

theorem heedless_setRunning (plugin : Option Running) :
    (setRunning plugin).Heedless Facilities.Alike :=
  Turn.coincide_modifyWorld fun _ _ h => ⟨h.table, by rw [h.own], h.calm, h.calm'⟩

theorem heedless_scheduleAll (calls : List Relay.Call) :
    (scheduleAll calls).Heedless Facilities.Alike := by
  induction calls with
  | nil => exact heedless_pure _ _
  | cons c calls ih =>
      refine (Facilities.heedless_scheduleFor c).bind fun scheduled => ?_
      cases scheduled with
      | error e => exact heedless_pure _ _
      | ok _ => exact ih.bind fun _ => heedless_pure _ _

theorem heedless_relay : relay.Heedless Facilities.Alike := by
  refine heedless_running.bind fun running => ?_
  cases running with
  | none => exact heedless_pure _ _
  | some plugin => exact (heedless_scheduleAll plugin.offered).bind fun _ => heedless_setRunning _

theorem heedless_withRunning (f : Running → Except PluginError Unit × Running) :
    (withRunning f).Heedless Facilities.Alike := by
  refine heedless_running.bind fun running => ?_
  cases running with
  | none => exact heedless_pure _ _
  | some plugin =>
      exact (heedless_setRunning _).bind fun _ => heedless_relay.bind fun _ => heedless_pure _ _

theorem heedless_launch (mimetype : String) :
    (launch mimetype).Heedless Facilities.Alike := by
  refine Turn.Coincide.world fun facilities facilities' h => ?_
  rw [← h.own]
  dsimp only
  cases Running.ofEntries facilities.own.files facilities.own.entries mimetype with
  | error e => exact heedless_pure _ _
  | ok plugin => exact (heedless_setRunning _).bind fun _ => heedless_pure _ _

theorem heedless_shutdown : shutdown.Heedless Facilities.Alike :=
  (heedless_withRunning _).bind fun _ => heedless_pure _ _

theorem heedless_start : start.Heedless Facilities.Alike := by
  refine (heedless_withRunning Running.start).bind fun started => ?_
  cases started with
  | error e => exact heedless_shutdown.bind fun _ => heedless_pure _ _
  | ok _ => exact heedless_pure _ _

/-- **Plugin processes are heedless of the way out**: the host relays their calls, and they do not
hear what became of them. -/
theorem heedless_plugins : plugins.Heedless where
  load := heedless_launch
  start _ := heedless_start
  name _ _ _ h :=
    congrArg (fun own : Station => (own.running.map Running.name).getD "") h.own
  onCall _ _ _ _ _ := heedless_withRunning _
  shutdown _ := heedless_shutdown

/-- So is the turn that relays a call. -/
theorem heedless_relayCall (c : Relay.Call) :
    (relayCall c).Heedless Facilities.Alike :=
  (Facilities.return_sendFor c.direction c.colony c.id c.text).drop (heedless_pure _ ())

end Service

end NativeMessaging.Host
