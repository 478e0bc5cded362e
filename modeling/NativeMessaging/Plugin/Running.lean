import NativeMessaging.Plugin.Error
import NativeMessaging.Plugin.Relay
import NativeMessaging.Subprocess.Launch

/-!
# Plugin — Running

A plugin that is a process of its own.  The host greets it with `init` and takes the first line of its
output for the answer, which has to be `ready` with the same version of the protocol; from then on
every call is a line of the input, and the rest of the output is relayed.
-/

namespace NativeMessaging

open Relay (Call)

/-- What the host does with the output of a plugin: it waits for the greeting, or it relays what follows
the greeting and has taken that many calls of it; a refused call ends the relay. -/
inductive Reading where
  | greeting
  | relaying (taken : Nat) (refused : Bool)
  deriving DecidableEq, Repr

/-- A plugin process: its name, whether the host still holds the other end of its input, how many bytes
of its output were read for the greeting, and what is done with the rest. -/
structure Running where
  name : String
  process : Subprocess
  connected : Bool
  consumed : Nat
  reading : Reading

namespace Running

/-- Starts the process of a plugin, which goes by its mimetype until it says its name. -/
def launch (files : Files.Tree) (mimetype : String) (l : Launch) : Except PluginError Running :=
  match l.start files with
  | .ok process => .ok ⟨mimetype, process, true, 0, .greeting⟩
  | .error e    => .error (.load mimetype s!"failed to spawn {l.executable}: {e.message}")

/-- The bytes of a message to a plugin: its text and a line feed. -/
def lineOf (m : HostMessage) : List UInt8 := Text.Utf8.encode m.print ++ [10]

/-- Sends a message to a plugin. -/
def send (plugin : Running) (m : HostMessage) : Except PluginError Running :=
  if plugin.connected then
    match plugin.process.give (lineOf m) with
    | .ok process => .ok { plugin with process := process }
    | .error e    => .error (.call s!"failed to write to plugin: {e.message}")
  else .error (.call "plugin process has shut down")

/-- The part of the output that the host has not read for the greeting. -/
def unread (plugin : Running) : List UInt8 :=
  plugin.process.behaviour.output.drop plugin.consumed

/-- The first line of bytes, with its line feed if there is one. -/
def firstLine : List UInt8 → List UInt8
  | []      => []
  | b :: bs => if b = 10 then [b] else b :: firstLine bs

/-- The name that a greeting gives, if it is one. -/
def nameOf (line : List UInt8) : Except PluginError String :=
  match Text.Utf8.decode line with
  | .error _ => .error (.init "failed to read from plugin: stream did not contain valid UTF-8")
  | .ok text =>
    if text.isEmpty then .error (.init "plugin exited before completing the handshake")
    else
      match PluginMessage.decode text with
      | .ok (.ready name version) =>
        if version = protocolVersion then .ok name
        else
          .error (.init
            s!"protocol version mismatch: expected {protocolVersion}, got {version.toNat}")
      | .ok _    => .error (.init "plugin sent a message before \x60ready\x60")
      | .error e => .error (.init s!"failed to parse plugin handshake: {e.message}")

/-- Greets a plugin and waits for the answer; the plugin is left as it is then, also where the answer
will not do. -/
def start (plugin : Running) : Except PluginError Unit × Running :=
  match plugin.send (.init protocolVersion) with
  | .error e   => (.error (.init e.message), plugin)
  | .ok plugin =>
    match plugin.reading with
    | .relaying _ _ => (.error (.init "plugin stdout already consumed"), plugin)
    | .greeting     =>
      let line := firstLine plugin.unread
      let plugin := { plugin with consumed := plugin.consumed + line.length }
      match nameOf line with
      | .error e => (.error e, plugin)
      | .ok name => (.ok (), { plugin with name := name, reading := .relaying 0 false })

/-- Sends one half of a call to a plugin. -/
def call (plugin : Running) (direction : Direction) (colony : ColonyId) (id : MessageId)
    (text : String) : Except PluginError Unit × Running :=
  let message := match direction with
    | .command  => HostMessage.command colony id text
    | .response => .response colony id text
  match plugin.send message with
  | .ok plugin => (.ok (), plugin)
  | .error e   => (.error e, plugin)

/-- The calls that a plugin asks for and the host has not taken yet. -/
def offered (plugin : Running) : List Call :=
  match plugin.reading with
  | .relaying taken false =>
    (Relay.calls (!plugin.process.behaviour.holdsOutput) plugin.unread).1.drop taken
  | _                     => []

/-- Takes offered calls: `accepted` of them, and whether the one behind them was refused. -/
def take (plugin : Running) (accepted : Nat) (refused : Bool) : Running :=
  match plugin.reading with
  | .relaying taken false => { plugin with reading := .relaying (taken + accepted) refused }
  | _                     => plugin

/-- Shuts a plugin down: tells it so, closes its input and kills it. -/
def shutdown (plugin : Running) : Running :=
  let plugin := match plugin.send .shutdown with
    | .ok plugin => plugin
    | .error _   => plugin
  { plugin with connected := false, process := plugin.process.kill }

end Running

end NativeMessaging
