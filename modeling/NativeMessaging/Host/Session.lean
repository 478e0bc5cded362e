import NativeMessaging.Host.Bridge
import NativeMessaging.Host.Loop
import NativeMessaging.Plugin.Configured

/-!
# Host — Session

The host at work: frames come in, the loop dispatches what they make to the plugins of the settings,
and what the plugins ask for goes out.  The input may arrive in parts of any size; after each part the
loop runs until it waits for more.
-/

namespace NativeMessaging.Host

/-- What the plugins of a host work on: the files, the plugins that the settings name, and the one that
was launched last. -/
structure Station where
  files : Files.Tree
  entries : List (String × Settings.PluginEntry)
  running : Option Running

/-- A turn on behalf of plugin processes, whose calls are those to relay. -/
abbrev Service (α : Type) := Turn Relay.Call (Facilities Station) α

namespace Service

/-- Relays a call of a plugin; nobody hears of a failure. -/
def relayCall (call : Relay.Call) : Service Unit := do
  let _ ← Facilities.sendFor call.direction call.colony call.id call.text

/-- Schedules calls up to the first that the host refuses: how many it accepted, and whether it refused
one. -/
def scheduleAll : List Relay.Call → Service (Nat × Bool)
  | []      => return (0, false)
  | c :: cs => do
    match ← Facilities.scheduleFor c with
    | .error _ => return (0, true)
    | .ok ()   =>
      let (accepted, refused) ← scheduleAll cs
      return (accepted + 1, refused)

/-- The plugin process, if there is one. -/
def running : Service (Option Running) := do return (← Turn.world).own.running

def setRunning (plugin : Option Running) : Service Unit :=
  Turn.modifyWorld fun f => { f with own := { f.own with running := plugin } }

/-- Schedules what the plugin process asks for. -/
def relay : Service Unit := do
  match ← running with
  | none        => return ()
  | some plugin =>
    let (accepted, refused) ← scheduleAll plugin.offered
    setRunning (some (plugin.take accepted refused))

/-- Does something with the plugin process, and schedules what it asks for then. -/
def withRunning (f : Running → Except PluginError Unit × Running) :
    Service (Except PluginError Unit) := do
  match ← running with
  | none        => return .ok ()
  | some plugin =>
    let (result, plugin) := f plugin
    setRunning (some plugin)
    relay
    return result

/-- Launches the plugin of a mimetype. -/
def launch (mimetype : String) : Service (Except PluginError Unit) := do
  let station := (← Turn.world).own
  match Running.ofEntries station.files station.entries mimetype with
  | .error e   => return .error e
  | .ok plugin =>
    setRunning (some plugin)
    return .ok ()

/-- Shuts the plugin process down, and schedules what it still asked for. -/
def shutdown : Service Unit := do
  let _ ← withRunning fun plugin => (.ok (), plugin.shutdown)

/-- Greets the plugin process.  The bridge drops a plugin that does not get ready, and a process that
is dropped is shut down. -/
def start : Service (Except PluginError Unit) := do
  match ← withRunning Running.start with
  | .error e =>
    shutdown
    return .error e
  | .ok ()   => return .ok ()

/-- Plugin processes as the bridge sees them. -/
def plugins : Plugins Relay.Call Unit Station where
  load := launch
  start _ := start
  name _ facilities := (facilities.own.running.map Running.name).getD ""
  onCall direction _ colony id text := withRunning fun plugin => plugin.call direction colony id text
  shutdown _ := shutdown

def handlers : Handlers Relay.Call (World Unit Station) where
  call c := Bridge.offering (relayCall c)
  dispatch := Bridge.dispatch plugins

end Service

/-- A host at work: its loop, the input that is no complete frame yet, and whether it still reads. -/
structure Session where
  loop : Loop Relay.Call (World Unit Station)
  pending : List UInt8
  frameLimit : Nat
  isReading : Bool

namespace Session

/-- A host with those settings. -/
def start (settings : Settings) (files : Files.Tree) : Session where
  loop := Loop.start
    ⟨.new, .empty, ⟨.unlimited, .ofLimit settings.limits.maxChunkSize⟩, ⟨files, settings.plugins, none⟩⟩
  pending := []
  frameLimit := settings.limits.maxFrameBytes
  isReading := true

/-- The most rounds that the loop may take before it waits. -/
def maxRounds : Nat := 1000000

/-- Lets the loop run until it waits. -/
def settle (session : Session) : Session :=
  { session with loop := session.loop.settle Service.handlers maxRounds }

/-- Takes a turn from outside the loop. -/
def perform (session : Session) (turn : Service Unit) : Session :=
  { session with loop := (session.loop.perform (Bridge.offering turn)).2 }

/-- Stops reading and asks the loop to stop. -/
def stopReading (session : Session) : Session :=
  { session.perform Turn.requestExit with isReading := false, pending := [] }

/-- Takes the complete frames of the pending input, one by one. -/
def takeFrames : (rounds : Nat) → Session → Session
  | 0,          session => session
  | rounds + 1, session =>
    if session.isReading then
      match Frame.Source.readFrame session.frameLimit ⟨session.pending, []⟩ with
      | (.ok none, _)              => session
      | (.error (.truncated _ _), _) => session
      | (.error _, _)              => session.stopReading
      | (.ok (some raw), source)   =>
        takeFrames rounds
          ({ session with pending := source.bytes }.perform (Facilities.messageIn raw)).settle
    else session

/-- How many bytes complete what is pending: the length of a frame, or the frame behind it. -/
def wanted (session : Session) : Nat :=
  let here := session.pending.length
  if here < Frame.headerSize then Frame.headerSize - here
  else Frame.headerSize + Frame.ofHeader (session.pending.take Frame.headerSize) - here

/-- More input arrives. -/
def receive (session : Session) (bytes : List UInt8) : Session :=
  let session := { session with pending := session.pending ++ bytes }
  takeFrames (session.pending.length + 1) session

/-- The input ends: the loop stops, and the plugin is shut down. -/
def finish (session : Session) : Session :=
  let session := session.stopReading
  { session with loop := (session.loop.perform (Bridge.shutdown Service.plugins)).2 }

/-- The bytes that were sent since they were last taken, and the session without them. -/
def drain (session : Session) : List UInt8 × Session :=
  let world := session.loop.world
  let (bytes, sink) := world.facilities.outbound.sink.drain
  let facilities : Facilities Station :=
    { world.facilities with outbound := { world.facilities.outbound with sink := sink } }
  (bytes, { session with loop := { session.loop with world := { world with facilities := facilities } } })

end Session

end NativeMessaging.Host
