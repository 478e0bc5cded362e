import NativeMessaging.Host.Turn

/-!
# Host — Loop

The main loop serves two queues: calls, and inbound messages.  A round takes at most one call and
then at most one message, so that neither queue waits for the other to be empty; before every round
the loop looks whether it has been asked to stop.  A panic ends the turn it happens in and nothing
else.
-/

namespace NativeMessaging.Host

variable {κ ω : Type}

/-- The queues, whether the loop has been asked to stop, and the world the turns work on. -/
structure Loop (κ ω : Type) where
  inbound : List Message
  calls : List κ
  exitRequested : Bool
  world : ω

/-- What the loop took from a queue. -/
inductive Item (κ : Type) where
  | call (call : κ)
  | message (message : Message)

/-- A turn that the loop gave to an item, and what the turn left for the loop. -/
structure Event (κ : Type) where
  item : Item κ
  posted : List Message
  scheduled : List κ
  exitRequested : Bool

/-- How calls are run and messages dispatched. -/
structure Handlers (κ ω : Type) where
  call : κ → Turn κ ω Unit
  dispatch : Message → Turn κ ω Unit

/-- The counts of a run. -/
structure Stats where
  calls : Nat
  messages : Nat
  deriving DecidableEq, Repr

namespace Loop

/-- A loop with empty queues. -/
def start (world : ω) : Loop κ ω := ⟨[], [], false, world⟩

/-- The scene on which a turn begins. -/
def scene (loop : Loop κ ω) : Scene κ ω := ⟨[], [], loop.exitRequested, loop.world⟩

/-- Puts what a turn left behind the queues; a request to stop is never taken back. -/
def absorb (loop : Loop κ ω) (scene : Scene κ ω) : Loop κ ω :=
  ⟨loop.inbound ++ scene.posted, loop.calls ++ scene.scheduled,
    loop.exitRequested || scene.exitRequested, scene.world⟩

/-- Runs a turn from outside and gives its result, if it returns. -/
def perform {α : Type} (loop : Loop κ ω) (turn : Turn κ ω α) : Except Panic α × Loop κ ω :=
  let (result, scene) := turn.on loop.scene
  (result, loop.absorb scene)

/-- Gives an item its turn. -/
def give (loop : Loop κ ω) (item : Item κ) (turn : Turn κ ω Unit) : Event κ × Loop κ ω :=
  let scene := (turn.on loop.scene).2
  (⟨item, scene.posted, scene.scheduled, scene.exitRequested⟩, loop.absorb scene)

/-- Takes the first call, if there is one. -/
def takeCall (handlers : Handlers κ ω) (loop : Loop κ ω) : List (Event κ) × Loop κ ω :=
  match loop.calls with
  | []      => ([], loop)
  | c :: cs =>
    let (event, loop) := give { loop with calls := cs } (.call c) (handlers.call c)
    ([event], loop)

/-- Takes the first message, if there is one. -/
def takeMessage (handlers : Handlers κ ω) (loop : Loop κ ω) : List (Event κ) × Loop κ ω :=
  match loop.inbound with
  | []      => ([], loop)
  | m :: ms =>
    let (event, loop) := give { loop with inbound := ms } (.message m) (handlers.dispatch m)
    ([event], loop)

/-- One round: at most one call, then at most one message. -/
def round (handlers : Handlers κ ω) (loop : Loop κ ω) : List (Event κ) × Loop κ ω :=
  let (called, loop) := loop.takeCall handlers
  let (dispatched, loop) := loop.takeMessage handlers
  (called ++ dispatched, loop)

/-- Nothing to do but to wait. -/
def isIdle (loop : Loop κ ω) : Bool :=
  !loop.exitRequested && loop.calls.isEmpty && loop.inbound.isEmpty

/-- Runs rounds until the loop has been asked to stop: the turns in order and the loop after them.
None where that takes more than `rounds` rounds, or where the loop waits for ever. -/
def run (handlers : Handlers κ ω) :
    (rounds : Nat) → Loop κ ω → Option (List (Event κ) × Loop κ ω)
  | rounds, loop =>
    if loop.exitRequested then some ([], loop)
    else if loop.isIdle then none
    else
      match rounds with
      | 0          => none
      | rounds + 1 => do
        let (now, loop) := loop.round handlers
        let (later, loop) ← run handlers rounds loop
        some (now ++ later, loop)

/-- Runs rounds while there is something to do. -/
def settle (handlers : Handlers κ ω) : (rounds : Nat) → Loop κ ω → Loop κ ω
  | 0,          loop => loop
  | rounds + 1, loop =>
    if loop.exitRequested || loop.isIdle then loop
    else settle handlers rounds (loop.round handlers).2

end Loop

/-- The counts of the turns of a run. -/
def Stats.ofEvents (events : List (Event κ)) : Stats :=
  events.foldl (fun stats event =>
    match event.item with
    | .call _    => { stats with calls := stats.calls + 1 }
    | .message _ => { stats with messages := stats.messages + 1 }) ⟨0, 0⟩

end NativeMessaging.Host
