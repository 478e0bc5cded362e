import NativeMessaging.Host.Bridge
import NativeMessaging.Proofs.Host.Turn

/-!
# Host — what each operation does to the bridge

A bridge *agrees* when it says that a plugin is active exactly where it holds one (`Agrees`).
Plugins and the way out are other code, which may panic at every call; what an operation ensures is
stated with the panics it may end in.

* `shutdown_ensures`: the bridge is as new, unless the plugin panics as it is shut down; then it is
  gone, and the bridge says what it said before.
* `create_ensures`: where that does not happen, the bridge agrees if the request returns, and is as
  before, or as new, if it panics.
* `forward_ensures`, `on_dispatch_ofCall`: a call changes nothing; it goes to the plugin that is
  held.
-/

namespace NativeMessaging.Host.Bridge

open Turn (Ensures on_bind)

variable {κ π σ α : Type}

/-! ### Steps that see the facilities, and steps that set a field -/

/-- The scene that a turn sees which sees the facilities only. -/
def offered (scene : Scene κ (World π σ)) : Scene κ (Facilities σ) :=
  ⟨scene.posted, scene.scheduled, scene.exitRequested, scene.world.facilities⟩

/-- A turn that sees the facilities only leaves the bridge alone. -/
theorem offering_ensures (turn : Turn κ (Facilities σ) α) (scene : Scene κ (World π σ)) :
    (offering turn).Ensures scene fun r s =>
      r = (turn.on (offered scene)).1 ∧ s.world.bridge = scene.world.bridge :=
  ⟨rfl, rfl⟩

theorem ack_ensures (a : Ack) (scene : Scene κ (World π σ)) :
    (ack a).Ensures scene fun _ s => s.world.bridge = scene.world.bridge :=
  (offering_ensures _ scene).bind (fun _ _ h => h.2) fun _ _ h => h.2

theorem setState_ensures (state : BridgeState) (scene : Scene κ (World π σ)) :
    (setState state).Ensures scene fun r s =>
      r = .ok () ∧ s.world.bridge = ⟨scene.world.bridge.plugin, state⟩ :=
  ⟨rfl, rfl⟩

theorem setPlugin_ensures (plugin : Option π) (scene : Scene κ (World π σ)) :
    (setPlugin plugin).Ensures scene fun r s =>
      r = .ok () ∧ s.world.bridge = ⟨plugin, scene.world.bridge.state⟩ ∧
        offered s = offered scene :=
  ⟨rfl, rfl, rfl⟩

/-! ### Letting go of a plugin -/

/-- The plugin that is held panics when it is shut down. -/
def shutdownPanics (plugins : Plugins κ π σ) (scene : Scene κ (World π σ)) : Bool :=
  match scene.world.bridge.plugin with
  | none        => false
  | some plugin => !((plugins.shutdown plugin).on (offered scene)).1.isOk

theorem isSome_of_shutdownPanics {plugins : Plugins κ π σ} {scene : Scene κ (World π σ)}
    (h : shutdownPanics plugins scene) : scene.world.bridge.plugin.isSome := by
  cases hplugin : scene.world.bridge.plugin with
  | none => simp [shutdownPanics, hplugin] at h
  | some plugin => rfl

/-- The bridge is as new behind a shutdown, except where the plugin panics in it: then the plugin is
gone, and what the bridge says is what it said before. -/
theorem shutdown_ensures (plugins : Plugins κ π σ) (scene : Scene κ (World π σ)) :
    (shutdown plugins).Ensures scene fun r s =>
      if shutdownPanics plugins scene then
        r = .error .panic ∧ s.world.bridge = ⟨none, scene.world.bridge.state⟩
      else r = .ok () ∧ s.world.bridge = new := by
  refine Ensures.world ?_
  cases h : scene.world.bridge.plugin with
  | none =>
      have hfalse : shutdownPanics plugins scene = false := by rw [shutdownPanics, h]
      refine (setState_ensures .uninitialized scene).mono fun r s hs => ?_
      rw [if_neg (by simp [hfalse]), hs.2, h]
      exact ⟨hs.1, rfl⟩
  | some plugin =>
      have hpanics : shutdownPanics plugins scene =
          !((plugins.shutdown plugin).on (offered scene)).1.isOk := by rw [shutdownPanics, h]
      refine (setPlugin_ensures none scene).bind (fun _ s₁ h₁ => ?_) fun _ _ h₁ => nomatch h₁.1
      obtain ⟨-, hbridge, hoffered⟩ := h₁
      have hoff := offering_ensures (plugins.shutdown plugin) s₁
      rw [hoffered, hbridge] at hoff
      refine hoff.bind (fun _ s₂ h₂ => ?_) fun _ s₂ h₂ => ?_
      · have hfalse : shutdownPanics plugins scene = false := by rw [hpanics, ← h₂.1]; rfl
        refine (setState_ensures .uninitialized s₂).mono fun r s₃ h₃ => ?_
        rw [if_neg (by simp [hfalse]), h₃.2, h₂.2]
        exact ⟨h₃.1, rfl⟩
      · have htrue : shutdownPanics plugins scene = true := by rw [hpanics, ← h₂.1]; rfl
        rw [if_pos htrue]
        exact ⟨rfl, h₂.2⟩

/-! ### Loading a plugin -/

/-- Loads the plugin of a mimetype into a bridge: what is left to do when the one before is gone. -/
def install (plugins : Plugins κ π σ) (mimetype : String) : Turn κ (World π σ) Unit := do
  match ← offering (load plugins mimetype) with
  | .ok plugin =>
    let name := plugins.name plugin (← Turn.world).facilities
    ack (.pluginLoaded name)
    setPlugin (some plugin)
    setState (.active name mimetype)
  | .error e =>
    ack (.failure e.message)
    setState (.failed e.message)

theorem create_eq (plugins : Plugins κ π σ) (mimetype : String) :
    create plugins mimetype = (do
      if (← Turn.world).bridge.plugin.isSome then shutdown plugins
      install plugins mimetype) := rfl

theorem install_ensures (plugins : Plugins κ π σ) (mimetype : String)
    (scene : Scene κ (World π σ)) :
    (install plugins mimetype).Ensures scene fun r s =>
      r = .error .panic ∧ s.world.bridge = scene.world.bridge ∨
      r = .ok () ∧ (∃ reason, s.world.bridge = ⟨scene.world.bridge.plugin, .failed reason⟩) ∨
      r = .ok () ∧ ∃ plugin name, s.world.bridge = ⟨some plugin, .active name mimetype⟩ := by
  refine (offering_ensures _ scene).bind (fun loaded s₁ h₁ => ?_) fun _ _ h₁ => .inl ⟨rfl, h₁.2⟩
  rw [← h₁.2]
  cases loaded with
  | ok plugin =>
      refine Ensures.world ?_
      refine (ack_ensures _ s₁).bind (fun _ s₂ h₂ => ?_) fun _ _ h₂ => .inl ⟨rfl, h₂⟩
      refine (setPlugin_ensures _ s₂).bind (fun _ s₃ h₃ => ?_) fun _ _ h₃ => nomatch h₃.1
      refine (setState_ensures _ s₃).mono fun r s₄ h₄ => ?_
      rw [h₃.2.1] at h₄
      exact .inr (.inr ⟨h₄.1, plugin, _, h₄.2⟩)
  | error e =>
      refine (ack_ensures _ s₁).bind (fun _ s₂ h₂ => ?_) fun _ _ h₂ => .inl ⟨rfl, h₂⟩
      refine (setState_ensures _ s₂).mono fun r s₃ h₃ => ?_
      rw [h₂] at h₃
      exact .inr (.inl ⟨h₃.1, _, h₃.2⟩)

/-- The bridge says that a plugin is active. -/
def isActive (bridge : Bridge π) : Bool :=
  match bridge.state with
  | .active _ _ => true
  | _           => false

/-- The bridge says that a plugin is active exactly where it holds one. -/
def Agrees (bridge : Bridge π) : Prop := bridge.isActive = bridge.plugin.isSome

/-- Where no plugin is held, the bridge agrees in the end, and a panic leaves it as it is. -/
theorem install_agrees (plugins : Plugins κ π σ) (mimetype : String) {scene : Scene κ (World π σ)}
    (hnone : scene.world.bridge.plugin = none) :
    (install plugins mimetype).Ensures scene fun r s =>
      if r.isOk then s.world.bridge.Agrees else s.world.bridge = scene.world.bridge := by
  refine (install_ensures plugins mimetype scene).mono fun r s h => ?_
  rcases h with ⟨rfl, h⟩ | ⟨rfl, reason, h⟩ | ⟨rfl, plugin, name, h⟩
  · exact h
  · rw [hnone] at h
    exact h ▸ rfl
  · exact h ▸ rfl

theorem create_ensures (plugins : Plugins κ π σ) (mimetype : String)
    (scene : Scene κ (World π σ)) :
    (create plugins mimetype).Ensures scene fun r s =>
      if shutdownPanics plugins scene then
        r = .error .panic ∧ s.world.bridge = ⟨none, scene.world.bridge.state⟩
      else if r.isOk then s.world.bridge.Agrees
      else s.world.bridge = scene.world.bridge ∨
        scene.world.bridge.plugin.isSome ∧ s.world.bridge = new := by
  rw [create_eq]
  refine Ensures.world ?_
  by_cases hheld : scene.world.bridge.plugin.isSome
  · rw [if_pos hheld]
    refine (shutdown_ensures plugins scene).bind (fun _ s₁ h₁ => ?_) fun _ s₁ h₁ => ?_
    · split at h₁
      · cases h₁.1
      · next hpanics =>
        obtain ⟨-, hnew⟩ := h₁
        refine (install_agrees plugins mimetype (hnew ▸ rfl)).mono fun r s h => ?_
        rw [hnew] at h
        rw [if_neg hpanics]
        by_cases hok : r.isOk
        · rwa [if_pos hok] at h ⊢
        · rw [if_neg hok] at h ⊢
          exact .inr ⟨hheld, h⟩
    · split at h₁
      · next hpanics => rwa [if_pos hpanics]
      · cases h₁.1
  · have hnone : scene.world.bridge.plugin = none := by simpa using hheld
    have hpanics : shutdownPanics plugins scene = false := by rw [shutdownPanics, hnone]
    rw [if_neg hheld]
    refine (install_agrees plugins mimetype hnone).mono fun r s h => ?_
    rw [if_neg (by simp [hpanics])]
    by_cases hok : r.isOk
    · rwa [if_pos hok] at h ⊢
    · rw [if_neg hok] at h ⊢
      exact .inl h

/-! ### Calls -/

theorem forward_ensures (plugins : Plugins κ π σ) (direction : Direction) (colony : ColonyId)
    (id : MessageId) (payload : String) (scene : Scene κ (World π σ)) :
    (forward plugins direction colony id payload).Ensures scene fun _ s =>
      s.world.bridge = scene.world.bridge := by
  refine Ensures.world ?_
  cases scene.world.bridge.plugin with
  | none => exact ack_ensures _ scene
  | some plugin =>
      exact (offering_ensures _ scene).bind (fun _ _ h => h.2) fun _ _ h => h.2

/-- One half of a call goes to the plugin that is held, and is answered where none is. -/
theorem on_dispatch_ofCall (plugins : Plugins κ π σ) (direction : Direction) (colony : ColonyId)
    (id : MessageId) (payload : String) (scene : Scene κ (World π σ)) :
    (dispatch plugins (.ofCall direction colony id payload)).on scene =
      match scene.world.bridge.plugin with
      | none        => (ack (.failure "No plugin loaded")).on scene
      | some plugin =>
        (do let _ ← offering (plugins.onCall direction plugin colony id payload)
          : Turn κ (World π σ) Unit).on scene := by
  have hforward : dispatch plugins (.ofCall direction colony id payload) =
      forward plugins direction colony id payload := by cases direction <;> rfl
  rw [hforward, forward, on_bind, Turn.on_world]
  dsimp only
  cases scene.world.bridge.plugin <;> rfl

end NativeMessaging.Host.Bridge
