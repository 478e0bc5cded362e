import NativeMessaging.Message.Basic

/-!
# Host — Turn

A turn is what runs between two looks of the main loop at its queues: a call, the dispatch of a
message, or a step from outside.  It changes a world, may ask the loop to stop, and leaves messages
and calls for the ends of the queues; of the queues themselves it sees nothing.  A turn may panic,
which ends it there: what it did before stays done.
-/

namespace NativeMessaging.Host

/-- The end of a turn that does not return. -/
inductive Panic where
  | panic
  deriving DecidableEq, Repr

/-- What a turn works on: the messages and calls it leaves for the loop so far, whether the loop has
been asked to stop, and the world. -/
structure Scene (κ ω : Type) where
  posted : List Message
  scheduled : List κ
  exitRequested : Bool
  world : ω

/-- Something that runs in a turn, with calls of type `κ` and a world of type `ω`. -/
abbrev Turn (κ ω α : Type) := ExceptT Panic (StateM (Scene κ ω)) α

namespace Turn

variable {κ ω ε α : Type}

/-- Runs a turn on a scene. -/
def on (turn : Turn κ ω α) (scene : Scene κ ω) : Except Panic α × Scene κ ω :=
  StateT.run (ExceptT.run turn) scene

/-- The turn of a function from scenes. -/
def ofScene (f : Scene κ ω → Except Panic α × Scene κ ω) : Turn κ ω α :=
  ExceptT.mk (fun scene => f scene)

/-- Ends the turn. -/
def panic : Turn κ ω α := ofScene fun scene => (.error .panic, scene)

/-- Leaves a message for the end of the inbound queue. -/
def post (m : Message) : Turn κ ω Unit :=
  ofScene fun scene => (.ok (), { scene with posted := scene.posted ++ [m] })

/-- Leaves a call for the end of the call queue. -/
def schedule (c : κ) : Turn κ ω Unit :=
  ofScene fun scene => (.ok (), { scene with scheduled := scene.scheduled ++ [c] })

/-- Asks the loop to stop. -/
def requestExit : Turn κ ω Unit :=
  ofScene fun scene => (.ok (), { scene with exitRequested := true })

/-- Whether the loop has been asked to stop. -/
def exitRequested : Turn κ ω Bool := ofScene fun scene => (.ok scene.exitRequested, scene)

/-- The world as it is. -/
def world : Turn κ ω ω := ofScene fun scene => (.ok scene.world, scene)

/-- Changes the world. -/
def modifyWorld (f : ω → ω) : Turn κ ω Unit :=
  ofScene fun scene => (.ok (), { scene with world := f scene.world })

/-- Changes the world by a step that may panic. -/
def step (f : ω → Except Panic α × ω) : Turn κ ω α :=
  ofScene fun scene =>
    let (result, world) := f scene.world
    (result, { scene with world := world })

/-- A turn on a part of the world. -/
def within (get : ω → ε) (set : ε → ω → ω) (turn : Turn κ ε α) : Turn κ ω α :=
  ofScene fun scene =>
    let (result, inner) :=
      turn.on ⟨scene.posted, scene.scheduled, scene.exitRequested, get scene.world⟩
    (result,
      ⟨inner.posted, inner.scheduled, inner.exitRequested, set inner.world scene.world⟩)

end Turn

end NativeMessaging.Host
