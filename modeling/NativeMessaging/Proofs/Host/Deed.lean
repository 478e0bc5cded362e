import NativeMessaging.Proofs.Host.Bridge
import NativeMessaging.Proofs.Host.Sink

/-!
# Host — what a turn has done

What a turn with the bridge has done with the facilities is a list of *deeds*: loading, starting,
naming, calling and shutting down plugins, and sending acks.  What a plugin writes itself is part of
its deed; `Done` says that deeds are done one behind the other and that there is nothing between
them.

* `exists_acked`: an ack through an open sink is exactly one frame.
* `keepsOpen_sendFor`: what a plugin writes leaves an open sink open.
* `CarriesOut`: a turn has done deeds that are so, unless the code of others panicked in it.  It is
  shown part by part (`CarriesOut.bind`).
-/

namespace NativeMessaging.Host

open Bridge (offered offering)

variable {κ π σ α β : Type}

/-! ### Deeds -/

/-- Something that is done with the facilities, and its outcome. -/
inductive Deed (κ π σ : Type) where
  | load (mimetype : String) (outcome : Except PluginError π)
  | start (plugin : π) (outcome : Except PluginError Unit)
  | name (plugin : π) (name : String)
  | call (direction : Direction) (plugin : π) (colony : ColonyId) (id : MessageId)
      (payload : String) (outcome : Except PluginError Unit)
  | shutdown (plugin : π)
  | ack (ack : Ack)
  | elsewhere (turn : Turn κ (Facilities σ) Unit)

/-- The sink takes every byte. -/
def Scene.IsOpen (scene : Scene κ (Facilities σ)) : Prop := scene.world.outbound.sink.IsOpen

/-- From one scene to the next an ack is sent; if a header can say its size, then with success, and
exactly one frame is written. -/
def Acked (a : Ack) (s s' : Scene κ (Facilities σ)) : Prop :=
  ∃ result, (Facilities.sendAck a).on s = (.ok result, s') ∧
    (a.print.utf8ByteSize < UInt32.size → result = .ok () ∧
      s'.world.outbound.sink.written =
        (Frame.bytes a.print).reverse ++ s.world.outbound.sink.written)

/-- From one scene to the next the deed is done, and has that outcome. -/
def Deed.Does (plugins : Plugins κ π σ) :
    Deed κ π σ → (s s' : Scene κ (Facilities σ)) → Prop
  | .load mimetype outcome, s, s' => (plugins.load mimetype).on s = (.ok outcome, s')
  | .start plugin outcome, s, s'  => (plugins.start plugin).on s = (.ok outcome, s')
  | .name plugin n, s, s'         => plugins.name plugin s.world = n ∧ s' = s
  | .call direction plugin colony id payload outcome, s, s' =>
    (plugins.onCall direction plugin colony id payload).on s = (.ok outcome, s')
  | .shutdown plugin, s, s'       => (plugins.shutdown plugin).on s = (.ok (), s')
  | .ack a, s, s'                 => Acked a s s'
  | .elsewhere turn, s, s'        => turn.on s = (.ok (), s')

/-- From one scene to the last the deeds are done, one behind the other. -/
inductive Done (plugins : Plugins κ π σ) :
    List (Deed κ π σ) → Scene κ (Facilities σ) → Scene κ (Facilities σ) → Prop where
  | nil (s : Scene κ (Facilities σ)) : Done plugins [] s s
  | cons {deed : Deed κ π σ} {deeds : List (Deed κ π σ)} {s s₁ s' : Scene κ (Facilities σ)}
      (h : deed.Does plugins s s₁) (t : Done plugins deeds s₁ s') :
      Done plugins (deed :: deeds) s s'

variable {plugins : Plugins κ π σ}

theorem Done.one {deed : Deed κ π σ} {s s' : Scene κ (Facilities σ)}
    (h : deed.Does plugins s s') : Done plugins [deed] s s' :=
  .cons h (.nil s')

theorem Done.append {deeds deeds' : List (Deed κ π σ)} {s s₁ s' : Scene κ (Facilities σ)}
    (h₁ : Done plugins deeds s s₁) (h₂ : Done plugins deeds' s₁ s') :
    Done plugins (deeds ++ deeds') s s' := by
  induction h₁ with
  | nil => exact h₂
  | cons h _ ih => exact .cons h (ih h₂)

/-! ### Turns that keep a sink open -/

/-- The turn leaves an open sink open, whether it returns or panics. -/
def KeepsOpen (turn : Turn κ (Facilities σ) α) : Prop :=
  ∀ scene, scene.IsOpen → (turn.on scene).2.IsOpen

/-- Plugins that leave an open sink open. -/
structure Plugins.KeepOpen (plugins : Plugins κ π σ) : Prop where
  load (mimetype : String) : KeepsOpen (plugins.load mimetype)
  start (plugin : π) : KeepsOpen (plugins.start plugin)
  onCall (direction : Direction) (plugin : π) (colony : ColonyId) (id : MessageId)
    (payload : String) : KeepsOpen (plugins.onCall direction plugin colony id payload)
  shutdown (plugin : π) : KeepsOpen (plugins.shutdown plugin)

theorem keepsOpen_pure (a : α) : KeepsOpen (pure a : Turn κ (Facilities σ) α) := fun _ h => h

theorem KeepsOpen.bind {turn : Turn κ (Facilities σ) α} {next : α → Turn κ (Facilities σ) β}
    (h : KeepsOpen turn) (hnext : ∀ a, KeepsOpen (next a)) : KeepsOpen (turn >>= next) :=
  Turn.Keeps.bind h hnext

/-- Where writing texts leaves the sink as it should be, so does what a plugin writes, whether its
text can be sent or not. -/
theorem keeps_sendFor {holds : Sink → Prop}
    (hwrite : ∀ (outbound : Outbound) (texts : List String), holds outbound.sink →
      ∃ result outbound', holds outbound'.sink ∧ outbound.write texts = (.ok result, outbound'))
    (direction : Direction) (colony : ColonyId) (id : MessageId) (payload : String) :
    Turn.Keeps (fun scene : Scene κ (Facilities σ) => holds scene.world.outbound.sink)
      (Facilities.sendFor direction colony id payload) := by
  refine Turn.Keeps.bind (fun scene hsink => ?_) fun _ _ hsink => hsink
  change holds (scene.world.outbound.send colony id direction payload).2.sink
  rw [Outbound.send]
  cases scene.world.outbound.chunker.encode colony id direction payload with
  | error e => exact hsink
  | ok texts =>
      obtain ⟨result, outbound', hsink', hwritten⟩ := hwrite scene.world.outbound texts hsink
      dsimp only
      rwa [hwritten]

/-- So what a plugin writes leaves an open sink open. -/
theorem keepsOpen_sendFor (direction : Direction) (colony : ColonyId) (id : MessageId)
    (payload : String) :
    KeepsOpen (Facilities.sendFor direction colony id payload : Turn κ (Facilities σ) _) :=
  keeps_sendFor (fun _ texts h => Outbound.exists_write_open h texts) direction colony id payload

/-! ### Acks -/

theorem on_sendAck {s : Scene κ (Facilities σ)} {a : Ack} {result : Written Frame.Error}
    {outbound : Outbound} (h : s.world.outbound.write [a.print] = (result, outbound)) :
    (Facilities.sendAck a).on s =
      (result, { s with world := { s.world with outbound := outbound } }) := by
  have hrun : (Facilities.sendAck a).on s =
      ((s.world.outbound.write [a.print]).1,
        { s with world := { s.world with outbound := (s.world.outbound.write [a.print]).2 } }) :=
    rfl
  rw [hrun, h]

/-- An open sink takes an ack, and stays open. -/
theorem exists_acked {s : Scene κ (Facilities σ)} (hopen : s.IsOpen) (a : Ack) :
    ∃ s', Acked a s s' ∧ s'.IsOpen := by
  by_cases hfits : a.print.utf8ByteSize < UInt32.size
  · obtain ⟨outbound, hopen', -, hwritten, hwrite⟩ :=
      Outbound.exists_write hopen (List.forall_mem_singleton.mpr hfits)
    rw [Frame.stream, List.flatMap_singleton] at hwritten
    exact ⟨_, ⟨.ok (), on_sendAck hwrite, fun _ => ⟨rfl, hwritten⟩⟩, hopen'⟩
  · -- too long for a header: it is given up, and the sink is as it was
    obtain ⟨result, outbound, hopen', hwrite⟩ := Outbound.exists_write_open hopen [a.print]
    exact ⟨_, ⟨result, on_sendAck hwrite, fun h => absurd h hfits⟩, hopen'⟩

/-! ### What a turn carries out -/

theorem on_offering (turn : Turn κ (Facilities σ) α) (scene : Scene κ (World π σ)) :
    (offering turn).on scene =
      ((turn.on (offered scene)).1,
        ⟨(turn.on (offered scene)).2.posted, (turn.on (offered scene)).2.scheduled,
          (turn.on (offered scene)).2.exitRequested,
          { scene.world with facilities := (turn.on (offered scene)).2.world }⟩) := rfl

theorem offering_bind (turn : Turn κ (Facilities σ) α) (next : α → Turn κ (Facilities σ) β) :
    (offering (turn >>= next) : Turn κ (World π σ) β) =
      offering turn >>= fun a => offering (next a) := by
  funext scene
  change (offering (turn >>= next)).on scene =
    (offering turn >>= fun a => offering (next a)).on scene
  rw [Turn.on_bind, on_offering, on_offering, Turn.on_bind]
  rcases turn.on (offered scene) with ⟨e | a, s⟩
  · rfl
  · rfl

/-- With an open sink, the turn has done deeds that are so.  Behind them it returns, and result,
deeds and bridge are so; or the code of others panics. -/
def CarriesOut (plugins : Plugins κ π σ) (panics : Scene κ (Facilities σ) → Prop)
    (turn : Turn κ (World π σ) α) (scene : Scene κ (World π σ))
    (post : α → List (Deed κ π σ) → Bridge π → Prop) : Prop :=
  (offered scene).IsOpen → ∃ deeds s, Done plugins deeds (offered scene) s ∧
    ((∃ a scene', turn.on scene = (.ok a, scene') ∧ offered scene' = s ∧ s.IsOpen ∧
        post a deeds scene'.world.bridge) ∨
      (turn.on scene).1 = .error .panic ∧ panics s)

namespace CarriesOut

variable {panics : Scene κ (Facilities σ) → Prop} {scene : Scene κ (World π σ)}

theorem mono {turn : Turn κ (World π σ) α} {post post' : α → List (Deed κ π σ) → Bridge π → Prop}
    (h : CarriesOut plugins panics turn scene post)
    (himp : ∀ a deeds bridge, post a deeds bridge → post' a deeds bridge) :
    CarriesOut plugins panics turn scene post' := by
  intro hopen
  obtain ⟨deeds, s, hdone, ⟨a, scene', hrun, hs, hopen', hpost⟩ | hpanic⟩ := h hopen
  · exact ⟨deeds, s, hdone, .inl ⟨a, scene', hrun, hs, hopen', himp _ _ _ hpost⟩⟩
  · exact ⟨deeds, s, hdone, .inr hpanic⟩

/-- **One turn behind another**: the deeds of the first come first. -/
theorem bind {turn : Turn κ (World π σ) α} {next : α → Turn κ (World π σ) β}
    {mid : α → List (Deed κ π σ) → Bridge π → Prop}
    {post : β → List (Deed κ π σ) → Bridge π → Prop}
    (h : CarriesOut plugins panics turn scene mid)
    (hnext : ∀ a deeds scene', mid a deeds scene'.world.bridge →
      CarriesOut plugins panics (next a) scene'
        fun b deeds' bridge => post b (deeds ++ deeds') bridge) :
    CarriesOut plugins panics (turn >>= next) scene post := by
  intro hopen
  obtain ⟨deeds, s, hdone, ⟨a, scene', hrun, rfl, hopen', hmid⟩ | ⟨hpanic, hs⟩⟩ := h hopen
  · obtain ⟨deeds', s', hdone', hend⟩ := hnext a deeds scene' hmid hopen'
    refine ⟨deeds ++ deeds', s', hdone.append hdone', ?_⟩
    rw [Turn.on_bind, hrun]
    exact hend
  · refine ⟨deeds, s, hdone, .inr ⟨?_, hs⟩⟩
    rw [Turn.on_bind]
    rcases hrun : turn.on scene with ⟨e | a, scene'⟩
    · -- one panic is as another
      rfl
    · rw [hrun] at hpanic
      cases hpanic

/-- Looking at the world does nothing. -/
theorem world {next : World π σ → Turn κ (World π σ) β}
    {post : β → List (Deed κ π σ) → Bridge π → Prop}
    (h : CarriesOut plugins panics (next scene.world) scene post) :
    CarriesOut plugins panics (Turn.world >>= next) scene post := by
  intro hopen
  have hend := h hopen
  simpa only [Turn.on_bind, Turn.on_world] using hend

/-- Asking a plugin for its name changes nothing. -/
theorem name {turn : Turn κ (World π σ) α} (plugin : π)
    {post : α → List (Deed κ π σ) → Bridge π → Prop}
    (h : CarriesOut plugins panics turn scene fun a deeds bridge =>
      post a (.name plugin (plugins.name plugin scene.world.facilities) :: deeds) bridge) :
    CarriesOut plugins panics turn scene post := by
  intro hopen
  obtain ⟨deeds, s, hdone, hend⟩ := h hopen
  have hname : (Deed.name plugin (plugins.name plugin scene.world.facilities)).Does plugins
      (offered scene) (offered scene) := ⟨rfl, rfl⟩
  exact ⟨_ :: deeds, s, .cons hname hdone, hend⟩

/-- A turn that sees the facilities only is a deed, where it is the turn of one. -/
theorem offering {turn : Turn κ (Facilities σ) α} (hkeeps : KeepsOpen turn)
    (scene : Scene κ (World π σ)) (deed : α → Deed κ π σ)
    (hdoes : ∀ a s s', turn.on s = (.ok a, s') → (deed a).Does plugins s s')
    (hpanics : ∀ s, (turn.on s).1 = .error .panic → panics s) :
    CarriesOut plugins panics (Bridge.offering turn) scene fun a deeds bridge =>
      deeds = [deed a] ∧ bridge = scene.world.bridge := by
  intro hopen
  have hopen' := hkeeps (offered scene) hopen
  rcases hrun : turn.on (offered scene) with ⟨e | a, s'⟩
  · refine ⟨[], offered scene, .nil _, .inr ⟨?_, hpanics _ (by rw [hrun])⟩⟩
    exact congrArg Prod.fst hrun
  · rw [hrun] at hopen'
    let scene' : Scene κ (World π σ) :=
      ⟨s'.posted, s'.scheduled, s'.exitRequested, { scene.world with facilities := s'.world }⟩
    have hoffering : (Bridge.offering turn).on scene = (.ok a, scene') := by
      rw [on_offering, hrun]
    exact ⟨[deed a], s', .one (hdoes a _ _ hrun),
      .inl ⟨a, scene', hoffering, rfl, hopen', rfl, rfl⟩⟩

/-- Setting a field of the bridge is no deed. -/
theorem setPlugin (plugin : Option π) (scene : Scene κ (World π σ)) :
    CarriesOut plugins panics (Bridge.setPlugin plugin) scene fun _ deeds bridge =>
      deeds = [] ∧ bridge = ⟨plugin, scene.world.bridge.state⟩ := fun hopen =>
  ⟨[], offered scene, .nil _, .inl ⟨(), _, rfl, rfl, hopen, rfl, rfl⟩⟩

theorem setState (state : BridgeState) (scene : Scene κ (World π σ)) :
    CarriesOut plugins panics (Bridge.setState state) scene fun _ deeds bridge =>
      deeds = [] ∧ bridge = ⟨scene.world.bridge.plugin, state⟩ := fun hopen =>
  ⟨[], offered scene, .nil _, .inl ⟨(), _, rfl, rfl, hopen, rfl, rfl⟩⟩

/-- An ack is a deed, and never panics. -/
theorem ack (a : Ack) (scene : Scene κ (World π σ)) :
    CarriesOut plugins panics (Bridge.ack a) scene fun _ deeds bridge =>
      deeds = [.ack a] ∧ bridge = scene.world.bridge := by
  intro hopen
  obtain ⟨s', hacked, hopen'⟩ := exists_acked hopen a
  obtain ⟨result, hrun, -⟩ := id hacked
  have hack : (Bridge.ack a).on scene =
      (.ok (), ((Bridge.offering (Facilities.sendAck a)).on scene).2) := by
    rw [Bridge.ack, Turn.on_bind, on_offering, hrun]
    rfl
  refine ⟨[.ack a], s', .one hacked, .inl ⟨(), _, hack, ?_, hopen', rfl, rfl⟩⟩
  rw [on_offering, hrun]
  rfl

/-- Returning does nothing. -/
theorem pure (a : α) (scene : Scene κ (World π σ)) :
    CarriesOut plugins panics (Pure.pure a : Turn κ (World π σ) α) scene fun b deeds bridge =>
      b = a ∧ deeds = [] ∧ bridge = scene.world.bridge := fun hopen =>
  ⟨[], offered scene, .nil _, .inl ⟨a, scene, rfl, rfl, hopen, rfl, rfl, rfl⟩⟩

end CarriesOut

end NativeMessaging.Host
