import NativeMessaging.Proofs.Host.Course
import NativeMessaging.Proofs.Host.Deed

/-!
# Host — the state machine of a bridge

`Step` is the machine: for each move, the bridge before it, its deeds in order, and the bridge
behind it.

* `carriesOut_move`: a move takes a step of the machine from every bridge that agrees.
* `Course.refines_step`: so does every move of every course in which nothing panicked before.
-/

namespace NativeMessaging.Host

open Bridge (offered offering)

variable {κ π σ : Type} {plugins : Plugins κ π σ}

/-! ### The machine -/

/-- What loading the plugin of a mimetype and starting it comes to. -/
inductive Loads (mimetype : String) : Except PluginError π → List (Deed κ π σ) → Prop where
  | notLoaded (e : PluginError) : Loads mimetype (.error e) [.load mimetype (.error e)]
  | notStarted (plugin : π) (e : PluginError) :
      Loads mimetype (.error e) [.load mimetype (.ok plugin), .start plugin (.error e)]
  | started (plugin : π) :
      Loads mimetype (.ok plugin) [.load mimetype (.ok plugin), .start plugin (.ok ())]

/-- What a request for the plugin of a mimetype comes to when no plugin is held. -/
inductive Installs (mimetype : String) : List (Deed κ π σ) → Bridge π → Prop where
  | active {plugin : π} {deeds : List (Deed κ π σ)} (name : String)
      (h : Loads mimetype (.ok plugin) deeds) :
      Installs mimetype (deeds ++ [.name plugin name, .ack (.pluginLoaded name)])
        ⟨some plugin, .active name mimetype⟩
  | failed {e : PluginError} {deeds : List (Deed κ π σ)} (h : Loads mimetype (.error e) deeds) :
      Installs mimetype (deeds ++ [.ack (.failure e.message)]) ⟨none, .failed e.message⟩

/-- The plugin that is held is shut down. -/
def Bridge.releases (bridge : Bridge π) : List (Deed κ π σ) :=
  bridge.plugin.toList.map .shutdown

/-- **The machine.**  A request shuts down the plugin that is held, whatever the state, and loads
another one; it is acknowledged once, by the name of the plugin or by what failed, which is also the
state then.  One half of a call goes to the plugin that is active, once and with all that the
message says, and whatever the plugin answers there is no ack and the state is as before; where none
is active, there is one ack instead. -/
inductive Step : Bridge π → Move κ σ → List (Deed κ π σ) → Bridge π → Prop where
  | create {bridge bridge' : Bridge π} {mimetype : String} {deeds : List (Deed κ π σ)}
      (h : Installs mimetype deeds bridge') :
      Step bridge (.dispatch (.create mimetype)) (bridge.releases ++ deeds) bridge'
  | called (plugin : π) (name mimetype : String) (direction : Direction) (colony : ColonyId)
      (id : MessageId) (payload : String) (outcome : Except PluginError Unit) :
      Step ⟨some plugin, .active name mimetype⟩
        (.dispatch (.ofCall direction colony id payload))
        [.call direction plugin colony id payload outcome] ⟨some plugin, .active name mimetype⟩
  | unanswered {bridge : Bridge π} (h : ¬ bridge.isActive) (direction : Direction)
      (colony : ColonyId) (id : MessageId) (payload : String) :
      Step bridge (.dispatch (.ofCall direction colony id payload))
        [.ack (.failure "No plugin loaded")] bridge
  | misunderstood (bridge : Bridge π) (description : String) :
      Step bridge (.dispatch (.error description)) [.ack (.failure description)] bridge
  | shutdown (bridge : Bridge π) : Step bridge .shutdown bridge.releases .new
  | elsewhere (bridge : Bridge π) (turn : Turn κ (Facilities σ) Unit) :
      Step bridge (.elsewhere turn) [.elsewhere turn] bridge

/-- A step ends in a bridge that agrees, if it began in one. -/
theorem Step.agrees {bridge bridge' : Bridge π} {move : Move κ σ} {deeds : List (Deed κ π σ)}
    (h : Step bridge move deeds bridge') (hagrees : bridge.Agrees) : bridge'.Agrees := by
  cases h with
  | create h =>
      cases h with
      | active => rfl
      | failed => rfl
  | called => rfl
  | unanswered => exact hagrees
  | misunderstood => exact hagrees
  | shutdown => rfl
  | elsewhere => exact hagrees

/-- The code of others that a move runs, and that panics on the scene. -/
inductive Panics (plugins : Plugins κ π σ) (bridge : Bridge π) :
    Move κ σ → Scene κ (Facilities σ) → Prop where
  | shutdown {move : Move κ σ} {plugin : π} {s : Scene κ (Facilities σ)}
      (hmove : move.replaces) (hheld : bridge.plugin = some plugin)
      (h : ((plugins.shutdown plugin).on s).1 = .error .panic) : Panics plugins bridge move s
  | load {mimetype : String} {s : Scene κ (Facilities σ)}
      (h : ((plugins.load mimetype).on s).1 = .error .panic) :
      Panics plugins bridge (.dispatch (.create mimetype)) s
  | start {mimetype : String} (plugin : π) {s : Scene κ (Facilities σ)}
      (h : ((plugins.start plugin).on s).1 = .error .panic) :
      Panics plugins bridge (.dispatch (.create mimetype)) s
  | call {direction : Direction} {colony : ColonyId} {id : MessageId} {payload : String}
      {plugin : π} {s : Scene κ (Facilities σ)} (hheld : bridge.plugin = some plugin)
      (h : ((plugins.onCall direction plugin colony id payload).on s).1 = .error .panic) :
      Panics plugins bridge (.dispatch (.ofCall direction colony id payload)) s
  | elsewhere {turn : Turn κ (Facilities σ) Unit} {s : Scene κ (Facilities σ)}
      (h : (turn.on s).1 = .error .panic) : Panics plugins bridge (.elsewhere turn) s

/-! ### The moves -/

/-- What is done elsewhere leaves an open sink open. -/
def Move.KeepsOpen : Move κ σ → Prop
  | .elsewhere turn => Host.KeepsOpen turn
  | _               => True

theorem carriesOut_load (hplugins : plugins.KeepOpen) (mimetype : String) (bridge : Bridge π)
    (scene : Scene κ (World π σ)) :
    CarriesOut plugins (Panics plugins bridge (.dispatch (.create mimetype)))
      (offering (Bridge.load plugins mimetype)) scene fun loaded deeds bridge' =>
        Loads mimetype loaded deeds ∧ bridge' = scene.world.bridge := by
  rw [Bridge.load, offering_bind]
  refine (CarriesOut.offering (hplugins.load mimetype) scene (.load mimetype)
    (fun _ _ _ h => h) fun _ h => .load h).bind fun loaded deeds s₁ h₁ => ?_
  obtain ⟨rfl, hbridge⟩ := h₁
  rw [← hbridge]
  cases loaded with
  | error e =>
      refine (CarriesOut.pure _ s₁).mono fun _ _ _ h => ?_
      obtain ⟨rfl, rfl, rfl⟩ := h
      exact ⟨.notLoaded e, rfl⟩
  | ok plugin =>
      dsimp only
      rw [offering_bind]
      refine (CarriesOut.offering (hplugins.start plugin) s₁ (.start plugin)
        (fun _ _ _ h => h) fun _ h => .start plugin h).bind fun started deeds s₂ h₂ => ?_
      obtain ⟨rfl, hbridge₂⟩ := h₂
      rw [← hbridge₂]
      cases started with
      | error e =>
          refine (CarriesOut.pure _ s₂).mono fun _ _ _ h => ?_
          obtain ⟨rfl, rfl, rfl⟩ := h
          exact ⟨.notStarted plugin e, rfl⟩
      | ok _ =>
          refine (CarriesOut.pure _ s₂).mono fun _ _ _ h => ?_
          obtain ⟨rfl, rfl, rfl⟩ := h
          exact ⟨.started plugin, rfl⟩

theorem carriesOut_install (hplugins : plugins.KeepOpen) (mimetype : String) (bridge : Bridge π)
    (scene : Scene κ (World π σ)) (hnone : scene.world.bridge.plugin = none) :
    CarriesOut plugins (Panics plugins bridge (.dispatch (.create mimetype)))
      (Bridge.install plugins mimetype) scene fun _ => Installs mimetype := by
  refine (carriesOut_load hplugins mimetype bridge scene).bind fun loaded deeds s₁ h₁ => ?_
  obtain ⟨hloads, hbridge₁⟩ := h₁
  cases loaded with
  | ok plugin =>
      -- the name that is acknowledged is the one that the state has
      refine .world (.name plugin ?_)
      refine (CarriesOut.ack _ s₁).bind fun _ _ s₂ h₂ => ?_
      obtain ⟨rfl, -⟩ := h₂
      refine (CarriesOut.setPlugin _ s₂).bind fun _ _ s₃ h₃ => ?_
      obtain ⟨rfl, hbridge₃⟩ := h₃
      refine (CarriesOut.setState _ s₃).mono fun _ _ _ h => ?_
      obtain ⟨rfl, rfl⟩ := h
      rw [hbridge₃]
      exact .active _ hloads
  | error e =>
      refine (CarriesOut.ack _ s₁).bind fun _ _ s₂ h₂ => ?_
      obtain ⟨rfl, hbridge₂⟩ := h₂
      refine (CarriesOut.setState _ s₂).mono fun _ _ _ h => ?_
      obtain ⟨rfl, rfl⟩ := h
      rw [hbridge₂, hbridge₁, hnone]
      exact .failed hloads

theorem carriesOut_shutdown (hplugins : plugins.KeepOpen) {move : Move κ σ}
    (hmove : move.replaces) (scene : Scene κ (World π σ)) :
    CarriesOut plugins (Panics plugins scene.world.bridge move) (Bridge.shutdown plugins) scene
      fun _ deeds bridge => deeds = scene.world.bridge.releases ∧ bridge = .new := by
  refine .world ?_
  rw [Bridge.releases]
  cases hplugin : scene.world.bridge.plugin with
  | none =>
      refine (CarriesOut.setState _ scene).mono fun _ _ _ h => ?_
      obtain ⟨rfl, rfl⟩ := h
      rw [hplugin]
      exact ⟨rfl, rfl⟩
  | some plugin =>
      refine (CarriesOut.setPlugin _ scene).bind fun _ _ s₁ h₁ => ?_
      obtain ⟨rfl, hbridge₁⟩ := h₁
      refine (CarriesOut.offering (hplugins.shutdown plugin) s₁ (fun _ => .shutdown plugin)
        (fun _ _ _ h => h) fun _ h => .shutdown hmove hplugin h).bind fun _ _ s₂ h₂ => ?_
      obtain ⟨rfl, hbridge₂⟩ := h₂
      refine (CarriesOut.setState _ s₂).mono fun _ _ _ h => ?_
      obtain ⟨rfl, rfl⟩ := h
      rw [hbridge₂, hbridge₁]
      exact ⟨rfl, rfl⟩

theorem carriesOut_create (hplugins : plugins.KeepOpen) (mimetype : String)
    (scene : Scene κ (World π σ)) :
    CarriesOut plugins (Panics plugins scene.world.bridge (.dispatch (.create mimetype)))
      (Bridge.create plugins mimetype) scene fun _ =>
        Step scene.world.bridge (.dispatch (.create mimetype)) := by
  rw [Bridge.create_eq]
  refine .world ?_
  by_cases hheld : scene.world.bridge.plugin.isSome
  · -- whatever becomes of the request, the plugin that was held is gone first
    rw [if_pos hheld]
    refine (carriesOut_shutdown hplugins rfl scene).bind fun _ deeds s₁ h₁ => ?_
    obtain ⟨rfl, hnew⟩ := h₁
    have hnone : s₁.world.bridge.plugin = none := by rw [hnew]; rfl
    exact (carriesOut_install hplugins mimetype _ s₁ hnone).mono fun _ _ _ h => .create h
  · rw [if_neg hheld]
    have hnone : scene.world.bridge.plugin = none := by simpa using hheld
    have hreleases : scene.world.bridge.releases = ([] : List (Deed κ π σ)) := by
      rw [Bridge.releases, hnone]; rfl
    refine (carriesOut_install hplugins mimetype _ scene hnone).mono fun _ deeds _ h => ?_
    rw [← List.nil_append deeds, ← hreleases]
    exact .create h

/-- A bridge that agrees is active where it holds a plugin, and nowhere else. -/
theorem Bridge.Agrees.cases {bridge : Bridge π} (h : bridge.Agrees) :
    (∃ plugin name mimetype, bridge = ⟨some plugin, .active name mimetype⟩) ∨
      bridge.plugin = none ∧ ¬ bridge.isActive := by
  obtain ⟨plugin, state⟩ := bridge
  cases plugin with
  | none => exact .inr ⟨rfl, by rw [h]; exact Bool.false_ne_true⟩
  | some plugin =>
      cases state with
      | active name mimetype => exact .inl ⟨plugin, name, mimetype, rfl⟩
      | uninitialized => cases h
      | failed reason => cases h

theorem carriesOut_forward (hplugins : plugins.KeepOpen) (direction : Direction)
    (colony : ColonyId) (id : MessageId) (payload : String) {scene : Scene κ (World π σ)}
    (hagrees : scene.world.bridge.Agrees) :
    CarriesOut plugins
      (Panics plugins scene.world.bridge (.dispatch (.ofCall direction colony id payload)))
      (Bridge.forward plugins direction colony id payload) scene fun _ =>
        Step scene.world.bridge (.dispatch (.ofCall direction colony id payload)) := by
  refine .world ?_
  obtain ⟨plugin, name, mimetype, hbridge⟩ | ⟨hnone, hactive⟩ := hagrees.cases
  · have hplugin : scene.world.bridge.plugin = some plugin := by rw [hbridge]
    rw [hplugin]
    refine (CarriesOut.offering (hplugins.onCall direction plugin colony id payload) scene
      (.call direction plugin colony id payload) (fun _ _ _ h => h)
      fun _ h => .call hplugin h).bind fun outcome _ s₁ h₁ => ?_
    obtain ⟨rfl, hbridge₁⟩ := h₁
    refine (CarriesOut.pure _ s₁).mono fun _ _ _ h => ?_
    obtain ⟨rfl, rfl, rfl⟩ := h
    rw [hbridge₁, hbridge]
    exact .called plugin name mimetype direction colony id payload outcome
  · rw [hnone]
    refine (CarriesOut.ack _ scene).mono fun _ _ _ h => ?_
    obtain ⟨rfl, rfl⟩ := h
    exact .unanswered hactive direction colony id payload

/-- **One move.**  From a bridge that agrees, a move takes a step of the machine, unless the code of
others panics in it. -/
theorem carriesOut_move (hplugins : plugins.KeepOpen) {move : Move κ σ} (hmove : move.KeepsOpen)
    {scene : Scene κ (World π σ)} (hagrees : scene.world.bridge.Agrees) :
    CarriesOut plugins (Panics plugins scene.world.bridge move) (move.turn plugins) scene
      fun _ => Step scene.world.bridge move := by
  cases move with
  | dispatch message =>
      cases message with
      | create mimetype => exact carriesOut_create hplugins mimetype scene
      | command colony id payload =>
          exact carriesOut_forward hplugins .command colony id payload hagrees
      | response colony id payload =>
          exact carriesOut_forward hplugins .response colony id payload hagrees
      | error description =>
          refine (CarriesOut.ack _ scene).mono fun _ _ _ h => ?_
          obtain ⟨rfl, rfl⟩ := h
          exact .misunderstood _ description
  | shutdown =>
      refine (carriesOut_shutdown hplugins rfl scene).mono fun _ _ _ h => ?_
      obtain ⟨rfl, rfl⟩ := h
      exact .shutdown _
  | elsewhere turn =>
      refine (CarriesOut.offering hmove scene (fun _ => .elsewhere turn) (fun _ _ _ h => h)
        fun _ h => .elsewhere h).mono fun _ _ _ h => ?_
      obtain ⟨rfl, rfl⟩ := h
      exact .elsewhere _ turn

/-! ### Courses -/

namespace Course

/-- The sink is open, and the bridge agrees. -/
structure IsSound (course : Course κ π σ) : Prop where
  isOpen : course.loop.world.facilities.outbound.sink.IsOpen
  agrees : course.bridge.Agrees

/-- **One more move**, behind which the course is as sound where it returned. -/
theorem IsSound.next {course : Course κ π σ} (h : course.IsSound) (hplugins : plugins.KeepOpen)
    {move : Move κ σ} (hmove : move.KeepsOpen) :
    ∃ deeds s, Done plugins deeds (offered course.loop.scene) s ∧
      (((move.turn plugins).on course.loop.scene).1 = .ok () ∧
          offered ((move.turn plugins).on course.loop.scene).2 = s ∧
          Step course.bridge move deeds (course.next plugins move).bridge ∧
          (course.next plugins move).IsSound ∨
        ((move.turn plugins).on course.loop.scene).1 = .error .panic ∧
          Panics plugins course.bridge move s) := by
  have hnext : (course.next plugins move).loop.world =
      ((move.turn plugins).on course.loop.scene).2.world := rfl
  have hturn : CarriesOut plugins _ (move.turn plugins) course.loop.scene _ :=
    carriesOut_move hplugins hmove h.agrees
  obtain ⟨deeds, s, hdone, ⟨_, scene', hrun, rfl, hopen, hstep⟩ | hpanic⟩ := hturn h.isOpen
  · rw [hrun] at hnext ⊢
    have hbridge : (course.next plugins move).bridge = scene'.world.bridge := by
      rw [bridge, hnext]
    rw [← hbridge] at hstep
    exact ⟨deeds, _, hdone, .inl ⟨rfl, rfl, hstep, ⟨by rw [hnext]; exact hopen,
      hstep.agrees h.agrees⟩⟩⟩
  · exact ⟨deeds, s, hdone, .inr hpanic⟩

/-- A course in which nothing panicked is sound. -/
theorem isSound_ofMoves {facilities : Facilities σ} (hopen : facilities.outbound.sink.IsOpen)
    (hplugins : plugins.KeepOpen) {moves : List (Move κ σ)} (hmoves : ∀ m ∈ moves, m.KeepsOpen)
    (hreturned : ∀ visit ∈ (ofMoves plugins facilities moves).visits, visit.result.isOk) :
    (ofMoves plugins facilities moves).IsSound := by
  induction moves using List.reverseRecOn with
  | nil => exact ⟨hopen, rfl⟩
  | append_singleton moves move ih =>
      -- of the two ends of the last move, the panic is excluded by its visit
      rw [ofMoves_concat] at hreturned ⊢
      obtain ⟨hmoves, hmove⟩ := List.forall_mem_append.mp hmoves
      obtain ⟨hreturned, hlast⟩ := List.forall_mem_append.mp hreturned
      obtain ⟨-, -, -, ⟨-, -, -, hsound⟩ | ⟨hpanic, -⟩⟩ :=
        (ih hmoves hreturned).next hplugins (List.forall_mem_singleton.mp hmove)
      · exact hsound
      · have hok := List.forall_mem_singleton.mp hlast
        change ((move.turn plugins).on (ofMoves plugins facilities moves).loop.scene).1.isOk at hok
        rw [hpanic] at hok
        cases hok

/-- **Every course refines the machine.**  Through a sink that takes every byte, whatever the
plugins write: behind moves of which none panicked, the next move either returns, and has taken a
step of the machine, with its deeds done one behind the other from the scene before it to the one
behind it; or the code of others panics in it. -/
theorem refines_step {facilities : Facilities σ} (hopen : facilities.outbound.sink.IsOpen)
    (hplugins : plugins.KeepOpen) {moves : List (Move κ σ)} {move : Move κ σ}
    (hmoves : ∀ m ∈ moves ++ [move], m.KeepsOpen)
    (hreturned : ∀ visit ∈ (ofMoves plugins facilities moves).visits, visit.result.isOk) :
    let course := ofMoves plugins facilities moves
    let outcome := (move.turn plugins).on course.loop.scene
    ∃ deeds s, Done plugins deeds (offered course.loop.scene) s ∧
      (outcome.1 = .ok () ∧ offered outcome.2 = s ∧
          Step course.bridge move deeds (course.next plugins move).bridge ∨
        outcome.1 = .error .panic ∧ Panics plugins course.bridge move s) := by
  intro course outcome
  obtain ⟨hbefore, hmove⟩ := List.forall_mem_append.mp hmoves
  have hsound := isSound_ofMoves hopen hplugins hbefore hreturned
  obtain ⟨deeds, s, hdone, ⟨hok, hs, hstep, -⟩ | hpanic⟩ :=
    hsound.next hplugins (List.forall_mem_singleton.mp hmove)
  · exact ⟨deeds, s, hdone, .inl ⟨hok, hs, hstep⟩⟩
  · exact ⟨deeds, s, hdone, .inr hpanic⟩

/-- Plugins that are named by their mimetype and send every call back, which they then reject; of
one mimetype there is none, and that of another does not start. -/
def echo : Plugins Unit String Unit where
  load mimetype :=
    return if mimetype = "none" then .error (.load mimetype "none") else .ok mimetype
  start plugin := return if plugin = "idle" then .error (.init "idle") else .ok ()
  name plugin _ := plugin
  onCall direction _ colony id payload := do
    let _ ← Facilities.sendFor direction colony id payload
    return .error (.call payload)
  shutdown _ := return ()

theorem keepOpen_echo : echo.KeepOpen where
  load _ := keepsOpen_pure _
  start _ := keepsOpen_pure _
  onCall direction _ colony id payload :=
    (keepsOpen_sendFor direction colony id payload).bind fun _ => keepsOpen_pure _
  shutdown _ := keepsOpen_pure _

/-- Behind a plugin that works, one that does not start, one that is not there, and the first again
in place of itself: a call goes to it. -/
theorem refines_step_echo :
    let moves : List (Move Unit Unit) :=
      [.dispatch (.create "a"), .dispatch (.create "idle"), .dispatch (.command ⟨1⟩ ⟨2⟩ "x"),
        .dispatch (.create "none"), .shutdown, .dispatch (.create "a"), .dispatch (.create "a")]
    let move : Move Unit Unit := .dispatch (.response ⟨1⟩ ⟨2⟩ "y")
    let course := ofMoves echo ⟨.empty, ⟨.unlimited, .largest⟩, ()⟩ moves
    let outcome := (move.turn echo).on course.loop.scene
    (∀ m ∈ moves ++ [move], m.KeepsOpen) ∧ (∀ visit ∈ course.visits, visit.result.isOk) ∧
      course.bridge = ⟨some "a", .active "a" "a"⟩ ∧
      ∃ deeds s, Done echo deeds (offered course.loop.scene) s ∧
        (outcome.1 = .ok () ∧ offered outcome.2 = s ∧
            Step course.bridge move deeds (course.next echo move).bridge ∨
          outcome.1 = .error .panic ∧ Panics echo course.bridge move s) := by
  intro moves move course outcome
  have hmoves : ∀ m ∈ moves ++ [move], m.KeepsOpen := by simp [moves, move, Move.KeepsOpen]
  have hreturned : ∀ visit ∈ course.visits, visit.result.isOk := by decide +kernel
  exact ⟨hmoves, hreturned, by decide +kernel,
    refines_step Sink.isOpen_unlimited keepOpen_echo hmoves hreturned⟩

end Course

end NativeMessaging.Host
