import NativeMessaging.Host.Bridge
import NativeMessaging.Host.Loop
import NativeMessaging.Plugin.Registry

/-!
# Rehearsal — Script

Plugins without code, for trying out a host: what each of them does is a list of actions, and what
happens is noted in a log.
-/

namespace NativeMessaging.Rehearsal

open Host (HostError)

/-- The call that actions belong to. -/
structure Address where
  colony : ColonyId
  id : MessageId
  payload : String
  deriving DecidableEq, Repr

/-- The address of actions that belong to no call. -/
def Address.nowhere : Address := ⟨⟨0⟩, ⟨0⟩, ""⟩

/-- The parts of an address that an action replaces. -/
structure Change where
  colony : Option ColonyId
  id : Option MessageId
  payload : Option String
  deriving DecidableEq, Repr

def Change.apply (change : Change) (address : Address) : Address :=
  ⟨change.colony.getD address.colony, change.id.getD address.id,
    change.payload.getD address.payload⟩

inductive Action where
  | note (text : String)
  | send (direction : Direction) (change : Change)
  | schedule (change : Change) (actions : List Action)
  | scheduleOnLoop (actions : List Action)
  | messageIn (raw : String)
  | post (message : Message)
  | exit
  | pending
  | panic
  | fail (error : PluginError)

/-- Actions that wait in the loop's queue for their turn. -/
structure ScheduledCall where
  actions : List Action
  address : Address

/-- What a plugin is called for. -/
inductive Occasion where
  | init
  | command
  | response
  | shutdown
  deriving DecidableEq, Repr

/-- A line of the log. -/
inductive Entry where
  | note (text : String)
  | called (plugin : String) (occasion : Occasion) (address : Address)
  | sent (direction : Direction) (result : Except HostError Unit)
  | scheduled (result : Except HostError Unit)
  | pending (count : Nat)
  | dispatched (message : Message)

/-- The log, the last line first, and how many messages the run under way has dispatched. -/
structure Notes where
  entries : List Entry
  dispatched : Nat

/-- A plugin of a rehearsal: the name it goes by, and what it does; or why it cannot be loaded. -/
structure Part where
  mimetype : String
  name : String
  loadError : Option PluginError
  onInit : List Action
  onCommand : List Action
  onResponse : List Action
  onShutdown : List Action

def Part.actions (part : Part) : Occasion → List Action
  | .init     => part.onInit
  | .command  => part.onCommand
  | .response => part.onResponse
  | .shutdown => part.onShutdown

end NativeMessaging.Rehearsal
