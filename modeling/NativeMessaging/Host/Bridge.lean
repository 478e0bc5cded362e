import NativeMessaging.Host.Facilities
import NativeMessaging.Plugin.Error

/-!
# Host — Bridge

The bridge holds the plugin that is loaded, if any, and brings each message where it belongs: a
request for a plugin loads one in place of the one before, a call goes to the plugin, and what could
not be understood is acknowledged as an error.  Acks are sent for what the bridge decides alone; that
one cannot be sent changes nothing.
-/

namespace NativeMessaging.Host

inductive BridgeState where
  | uninitialized
  | active (name mimetype : String)
  | failed (reason : String)
  deriving DecidableEq, Repr

/-- The plugin that is loaded, and what the bridge says about it. -/
structure Bridge (π : Type) where
  plugin : Option π
  state : BridgeState
  deriving DecidableEq, Repr

/-- The bridge and what the host offers to the plugins. -/
structure World (π σ : Type) where
  bridge : Bridge π
  facilities : Facilities σ

/-- How plugins of type `π` are loaded, started, called and shut down; all of it in turns that see
the facilities, but not the bridge. -/
structure Plugins (κ π σ : Type) where
  load : (mimetype : String) → Turn κ (Facilities σ) (Except PluginError π)
  start : π → Turn κ (Facilities σ) (Except PluginError Unit)
  name : π → Facilities σ → String
  onCall : Direction → π → ColonyId → MessageId → String →
    Turn κ (Facilities σ) (Except PluginError Unit)
  shutdown : π → Turn κ (Facilities σ) Unit

namespace Bridge

variable {κ π σ : Type}

/-- A bridge to which nothing has happened. -/
def new : Bridge π := ⟨none, .uninitialized⟩

/-- A turn that sees the facilities only. -/
def offering {α : Type} (turn : Turn κ (Facilities σ) α) : Turn κ (World π σ) α :=
  turn.within World.facilities fun facilities world => { world with facilities := facilities }

/-- Sets what the bridge says. -/
def setState (state : BridgeState) : Turn κ (World π σ) Unit :=
  Turn.modifyWorld fun world => { world with bridge := { world.bridge with state := state } }

/-- Holds a plugin, or none. -/
def setPlugin (plugin : Option π) : Turn κ (World π σ) Unit :=
  Turn.modifyWorld fun world => { world with bridge := { world.bridge with plugin := plugin } }

/-- Sends an ack, or gives it up. -/
def ack (a : Ack) : Turn κ (World π σ) Unit := do
  let _ ← offering (Facilities.sendAck a)

/-- Lets go of the plugin, if there is one, and then shuts it down. -/
def shutdown (plugins : Plugins κ π σ) : Turn κ (World π σ) Unit := do
  match (← Turn.world).bridge.plugin with
  | some plugin =>
    setPlugin none
    offering (plugins.shutdown plugin)
  | none        => pure ()
  setState .uninitialized

/-- Loads the plugin of a mimetype and starts it. -/
def load (plugins : Plugins κ π σ) (mimetype : String) :
    Turn κ (Facilities σ) (Except PluginError π) := do
  match ← plugins.load mimetype with
  | .error e   => return .error e
  | .ok plugin =>
    match ← plugins.start plugin with
    | .error e => return .error e
    | .ok ()   => return .ok plugin

/-- Replaces the plugin by the one of a mimetype. -/
def create (plugins : Plugins κ π σ) (mimetype : String) : Turn κ (World π σ) Unit := do
  if (← Turn.world).bridge.plugin.isSome then shutdown plugins
  match ← offering (load plugins mimetype) with
  | .ok plugin =>
    let name := plugins.name plugin (← Turn.world).facilities
    ack (.pluginLoaded name)
    setPlugin (some plugin)
    setState (.active name mimetype)
  | .error e =>
    ack (.failure e.message)
    setState (.failed e.message)

/-- The answer to a call when there is no plugin. -/
def noPlugin : Ack := .failure "No plugin loaded"

/-- Brings one half of a call to the plugin; that the plugin rejects it changes nothing. -/
def forward (plugins : Plugins κ π σ) (direction : Direction) (colony : ColonyId) (id : MessageId)
    (payload : String) : Turn κ (World π σ) Unit := do
  match (← Turn.world).bridge.plugin with
  | none        => ack noPlugin
  | some plugin =>
    let _ ← offering (plugins.onCall direction plugin colony id payload)

/-- Brings a message where it belongs. -/
def dispatch (plugins : Plugins κ π σ) : Message → Turn κ (World π σ) Unit
  | .create mimetype            => create plugins mimetype
  | .command colony id payload  => forward plugins .command colony id payload
  | .response colony id payload => forward plugins .response colony id payload
  | .error description          => ack (.failure description)

end Bridge

end NativeMessaging.Host
