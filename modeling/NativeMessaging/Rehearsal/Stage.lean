import NativeMessaging.Rehearsal.Script

/-!
# Rehearsal — Stage

The host with scripted plugins, taken through steps one by one.
-/

namespace NativeMessaging.Rehearsal

open Host

/-- A turn of a scripted plugin or call. -/
abbrev Play := Turn ScheduledCall (Facilities Notes)

/-- Adds a line to the log. -/
def jot (entry : Entry) : Play Unit :=
  Turn.modifyWorld fun facilities =>
    { facilities with own := { facilities.own with entries := entry :: facilities.own.entries } }

/-- Performs one action. -/
def Action.perform (address : Address) : Action → Play (Except PluginError Unit)
  | .note text               => do
    jot (.note text)
    return .ok ()
  | .send direction change  => do
    let target := change.apply address
    let result ← Facilities.sendFor direction target.colony target.id target.payload
    jot (.sent direction result)
    return .ok ()
  | .schedule change actions => do
    jot (.scheduled (← Facilities.scheduleFor ⟨actions, change.apply address⟩))
    return .ok ()
  | .scheduleOnLoop actions  => do
    Turn.schedule ⟨actions, .nowhere⟩
    return .ok ()
  | .messageIn raw           => do
    Facilities.messageIn raw
    return .ok ()
  | .post message            => do
    Turn.post message
    return .ok ()
  | .exit                    => do
    Turn.requestExit
    return .ok ()
  | .pending                 => do
    jot (.pending (← Facilities.pendingChunks))
    return .ok ()
  | .panic                   => Turn.panic
  | .fail error              => return .error error

/-- Performs actions in order, up to the first that fails. -/
def performAll (address : Address) : List Action → Play (Except PluginError Unit)
  | []      => return .ok ()
  | a :: as => do
    match ← a.perform address with
    | .ok ()   => performAll address as
    | .error e => return .error e

/-- Runs a scheduled call; nobody hears of its failure. -/
def ScheduledCall.run (call : ScheduledCall) : Play Unit := do
  let _ ← performAll call.address call.actions

/-- Plays a part on an occasion. -/
def Part.play (part : Part) (occasion : Occasion) (address : Address) :
    Play (Except PluginError Unit) := do
  jot (.called part.name occasion address)
  performAll address (part.actions occasion)

/-- The occasion of one half of a call. -/
def Occasion.ofDirection : Direction → Occasion
  | .command  => .command
  | .response => .response

/-- A part, unless it cannot be loaded. -/
def Part.load (part : Part) : Except PluginError Part :=
  match part.loadError with
  | some e => .error e
  | none   => .ok part

/-- The parts that a rehearsal has. -/
abbrev Cast := Plugin.Registry Part

def Cast.ofParts (parts : List Part) : Cast :=
  Plugin.Registry.ofList (parts.map fun part => (part.mimetype, part))

/-- Loads the part for a mimetype. -/
def Cast.load (cast : Cast) (mimetype : String) : Except PluginError Part := do
  (← cast.find mimetype).load

def Cast.plugins (cast : Cast) : Plugins ScheduledCall Part Notes where
  load mimetype := return cast.load mimetype
  start part := part.play .init .nowhere
  name part _ := part.name
  onCall direction part colony id payload := part.play (.ofDirection direction) ⟨colony, id, payload⟩
  shutdown part := do
    let _ ← part.play .shutdown .nowhere

/-- The host of a rehearsal. -/
abbrev Stage := Loop ScheduledCall (World Part Notes)

def Stage.new (outbound : Outbound) : Stage :=
  Loop.start ⟨Bridge.new, ⟨.empty, outbound, ⟨[], 0⟩⟩⟩

/-- How a run goes on: after which message it requests the exit, at which messages it panics, and
whether messages reach the bridge. -/
structure Direct where
  exitAfter : Option Nat
  panicOn : List Nat
  toBridge : Bool

/-- Counts a message of the run, and logs it. -/
def countMessage (message : Message) : Play Nat := do
  jot (.dispatched message)
  Turn.step fun facilities =>
    let k := facilities.own.dispatched + 1
    (.ok k, { facilities with own := { facilities.own with dispatched := k } })

/-- Dispatches a message of a run. -/
def Direct.dispatch (direct : Direct) (cast : Cast) (message : Message) :
    Turn ScheduledCall (World Part Notes) Unit := do
  let k ← Bridge.offering (countMessage message)
  if direct.exitAfter = some k then Turn.requestExit
  if k ∈ direct.panicOn then Turn.panic
  if direct.toBridge then Bridge.dispatch cast.plugins message

def Direct.handlers (direct : Direct) (cast : Cast) :
    Handlers ScheduledCall (World Part Notes) where
  call c := Bridge.offering c.run
  dispatch := direct.dispatch cast

/-- One step of a rehearsal. -/
inductive Step where
  | dispatch (message : Message)
  | ack (ack : Ack)
  | send (direction : Direction) (colony : ColonyId) (id : MessageId) (payload : String)
  | shutdown
  | pump (limit : Nat) (source : Frame.Source)
  | run (direct : Direct)
  | act (action : Action)

/-- What a step gives. -/
inductive Outcome where
  | done
  | frameError (error : Frame.Error)
  | pluginError (error : PluginError)
  | panicked
  | frames (count : Nat)
  | stats (stats : Stats)
  | endless

/-- The most rounds that a run may take. -/
def maxRounds : Nat := 1000000

/-- The outcome of a turn that may fail. -/
def Outcome.ofResult {ε : Type} (error : ε → Outcome) : Except ε Unit → Outcome
  | .ok ()   => .done
  | .error e => error e

/-- Takes a turn from outside. -/
def Stage.take {α : Type} (stage : Stage) (outcome : α → Outcome)
    (turn : Turn ScheduledCall (World Part Notes) α) : Outcome × Stage :=
  match stage.perform turn with
  | (.ok a, stage)    => (outcome a, stage)
  | (.error _, stage) => (.panicked, stage)

/-- Runs the loop. -/
def Stage.run (stage : Stage) (cast : Cast) (direct : Direct) : Outcome × Stage :=
  let fresh (world : World Part Notes) : World Part Notes :=
    { world with facilities :=
      { world.facilities with own := { world.facilities.own with dispatched := 0 } } }
  match Loop.run (direct.handlers cast) maxRounds { stage with world := fresh stage.world } with
  | some (events, stage) => (.stats (Stats.ofEvents events), stage)
  | none                 => (.endless, stage)

/-- Takes one step. -/
def Stage.step (stage : Stage) (cast : Cast) : Step → Outcome × Stage
  | .dispatch message               => stage.take (fun _ => .done) (Bridge.dispatch cast.plugins message)
  | .ack a                          =>
    stage.take (Outcome.ofResult .frameError) (Bridge.offering (Facilities.sendAck a))
  | .send direction colony id payload =>
    stage.take (Outcome.ofResult .frameError)
      (Bridge.offering (Facilities.send direction colony id payload))
  | .shutdown                       => stage.take (fun _ => .done) (Bridge.shutdown cast.plugins)
  | .pump limit source              =>
    stage.take .frames (Bridge.offering (Facilities.pump limit source))
  | .run direct                     => stage.run cast direct
  | .act action                     =>
    stage.take (Outcome.ofResult .pluginError) (Bridge.offering (action.perform .nowhere))

/-- The log and the bytes of the last step, and the stage without them. -/
def Stage.drain (stage : Stage) : List Entry × List UInt8 × Stage :=
  let facilities := stage.world.facilities
  let (bytes, sink) := facilities.outbound.sink.drain
  let facilities : Facilities Notes :=
    { facilities with
      outbound := { facilities.outbound with sink := sink }
      own := { facilities.own with entries := [] } }
  (stage.world.facilities.own.entries.reverse, bytes,
    { stage with world := { stage.world with facilities := facilities } })

end NativeMessaging.Rehearsal
