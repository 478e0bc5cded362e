import NativeMessaging.Shell.Arithmetic
import NativeMessaging.Shell.Parser
import NativeMessaging.Shell.Utility

/-!
# Shell — Evaluation

Runs the commands of a script.
-/

namespace NativeMessaging.Shell

/-- A character of an expanded word, and whether it was quoted. -/
abbrev Marked := Char × Bool

/-- What a piece of a word expands to: characters, and places where the word is cut. -/
inductive Expansion where
  | chars (chars : List Marked)
  | cut
  deriving DecidableEq, Repr

namespace Expansion

/-- Characters that are not cut. -/
def whole (quoted : Bool) (text : String) : List Expansion :=
  [.chars (text.toList.map (·, quoted))]

/-- Cuts a text at blanks: the field under way is held with its last character first. -/
def splitChars : (field : List Marked) → List Char → List Expansion
  | [],    []      => []
  | field, []      => [.chars field.reverse]
  | field, c :: cs =>
    if Utility.isBlank c then
      (if field.isEmpty then [] else [.chars field.reverse]) ++ .cut :: splitChars [] cs
    else splitChars ((c, false) :: field) cs

/-- A value in a word; one that is not quoted is cut at blanks. -/
def value (quoted : Bool) (text : String) : List Expansion :=
  if quoted then whole true text else splitChars [] text.toList

/-- Values with cuts between them. -/
def values (quoted : Bool) (texts : List String) : List Expansion :=
  List.intercalate [.cut] (texts.map (value quoted))

/-- The fields of what the pieces of a word expand to; `field` is the one under way, if there is
one. -/
def fields : (field : Option (List Marked)) → List Expansion → List (List Marked)
  | none,   []              => []
  | some f, []              => [f]
  | none,   .cut :: es      => fields none es
  | some f, .cut :: es      => f :: fields none es
  | field,  .chars cs :: es => fields (some (field.getD [] ++ cs)) es

end Expansion

/-- The text of marked characters. -/
def unmarked (cs : List Marked) : String := String.ofList (cs.map Prod.fst)

/-- Drops line feeds at the end. -/
def withoutFinalLines (bytes : List UInt8) : List UInt8 :=
  (bytes.reverse.dropWhile (· == 10)).reverse

/-- Leads channels elsewhere. -/
def redirect (r : Redirection) (name : String) : Act Unit := do
  let m ← Act.machine
  let outlet := match r.target with
    | .closed    => Outlet.closed
    | .channel 1 => m.outlet
    | _          => .unseen
  match r.channel, r.target with
  | 0, .closed => Act.modify fun m => { m with inlet := .closed }
  | 0, .file _ =>
    match m.files.find ⟨name⟩ with
    | .ok (.file bytes _ _) => Act.modify fun m => { m with inlet := .bytes bytes }
    | _                     => Act.halt (.exit 2)
  | 1, _       => Act.modify fun m => { m with outlet := outlet }
  | _, _       => return ()

/-- Makes the channels of the present command those of the script for good. -/
def adopt : Act Unit :=
  Act.modify fun m =>
    { m with
      adopted := false
      holdsInput := m.holdsInput && m.inlet == .feed
      holdsOutput := m.holdsOutput && m.outlet == .output }

/-- Ends a part of a script that had a machine of its own: the part may have read input. -/
def rejoin (part : Machine) (written : List UInt8) : Act Unit :=
  Act.modify fun m =>
    let inlet := match m.inlet, part.inlet with
      | .bytes _, .bytes left => Inlet.bytes left
      | inlet,    _           => inlet
    { m with
      feed := part.feed
      written := written
      inlet := inlet
      lingering := m.lingering || part.lingering }

/-- The status with which a part ended; one that did not end halts the script. -/
def statusOf : Except Halt Nat → Act Nat
  | .ok status    => return status
  | .error reason =>
    match reason.status? with
    | some status => return status
    | none        => Act.halt reason

/-- Whether a part has ended. -/
def hasEnded : Except Halt Nat → Bool
  | .ok _         => true
  | .error reason => reason.status?.isSome

/-- The value of a parameter, if it has one. -/
def parameter? (m : Machine) (name : String) : Option String :=
  match name.toNat? with
  | some 0       => some m.name
  | some (i + 1) => m.arguments[i]?
  | none         =>
    match name with
    | "#"  => some (toString m.arguments.length)
    | "?"  => some (toString m.status)
    | "*"  => some (String.intercalate " " m.arguments)
    | "$"  => some Utility.ownNumber
    | "!"  => some Utility.childNumber
    | name => m.environment.lookup name

/-- Remembers the status of a command. -/
def finish (status : Nat) : Act Nat := do
  Act.modify fun m => { m with status := status }
  return status

mutual

/-- Expands a piece of a word. -/
def expand : (fuel : Nat) → Piece → Act (List Expansion)
  | 0,        _     => Act.halt .asleep
  | fuel + 1, piece => do
    match piece with
    | .text t quoted     => return Expansion.whole quoted t
    | .arguments quoted  => return Expansion.values quoted (← Act.machine).arguments
    | .parameter n v quoted => expandParameter fuel n v quoted
    | .number t quoted   =>
      let text ← expandText fuel t
      let m ← Act.machine
      let valueOf (name : String) : Int :=
        ((m.environment.lookup name).bind String.toInt?).getD 0
      match Arithmetic.value valueOf (unmarked text) with
      | none              => Act.halt (.exit 2)
      | some (i, name)    => do
        if let some name := name then Act.assign name (toString i)
        return Expansion.value quoted (toString i)
    | .output s quoted   => do
      match Command.parse s with
      | none         => Act.halt (.exit 2)
      | some command =>
        let (result, part) ← Act.apart (fun m => { m with written := [], outlet := .output })
          (evaluate fuel command)
        rejoin part (← Act.machine).written
        let status ← statusOf result
        Act.modify fun m => { m with status := status }
        return Expansion.value quoted (Utility.textOf (withoutFinalLines part.written.reverse))

/-- Expands what is made of the value of a parameter. -/
def expandParameter :
    (fuel : Nat) → String → Variation → (quoted : Bool) → Act (List Expansion)
  | 0,        _,    _,         _      => Act.halt .asleep
  | fuel + 1, name, variation, quoted => do
    let given := parameter? (← Act.machine) name
    let value := given.getD ""
    let isMissing (emptyCounts : Bool) : Bool := given.isNone || (emptyCounts && value.isEmpty)
    match variation with
    | .plain                          => return Expansion.value quoted value
    | .length                         => return Expansion.value quoted (toString value.length)
    | .orElse assigns emptyCounts w   =>
      if isMissing emptyCounts then
        let text := unmarked (← expandText fuel w)
        if assigns then Act.assign name text
        return Expansion.value quoted text
      else return Expansion.value quoted value
    | .ifGiven emptyCounts w          =>
      if isMissing emptyCounts then return Expansion.value quoted ""
      else return Expansion.value quoted (unmarked (← expandText fuel w))
    | .withoutStart longest p         =>
      return Expansion.value quoted (Pattern.withoutStart longest (← expandText fuel p) value)
    | .withoutEnd longest p           =>
      return Expansion.value quoted (Pattern.withoutEnd longest (← expandText fuel p) value)

/-- Expands a text as one word that is not cut. -/
def expandText : (fuel : Nat) → String → Act (List Marked)
  | 0,        _    => Act.halt .asleep
  | fuel + 1, text =>
    match Token.wordOf text with
    | some w => expandWhole fuel w
    | none   => Act.halt (.exit 2)

/-- The fields of a word. -/
def expandWord : (fuel : Nat) → Word → Act (List (List Marked))
  | 0,        _ => Act.halt .asleep
  | fuel + 1, w => do
    let expansions ← w.mapM (expand fuel)
    let fields := Expansion.fields none expansions.flatten
    return if fields = [[]] && w.contains (.arguments true) then [] else fields

/-- A word that is not cut. -/
def expandWhole : (fuel : Nat) → Word → Act (List Marked)
  | 0,        _ => Act.halt .asleep
  | fuel + 1, w => do
    let expansions ← w.mapM (expand fuel)
    return expansions.flatten.flatMap fun
      | .chars cs => cs
      | .cut      => [(' ', true)]

/-- Runs a command and gives its status. -/
def evaluate : (fuel : Nat) → Command → Act Nat
  | 0,        _       => Act.halt .asleep
  | fuel + 1, command => do
    match command with
    | .nothing                 => return (← Act.machine).status
    | .simple assignments ws   => do
      let fields ← ws.mapM (expandWord fuel)
      let values ← assignments.mapM fun (n, w) => do
        return (n, unmarked (← expandWhole fuel w))
      let before := (← Act.machine).environment
      for (n, v) in values do Act.assign n v
      match fields.flatten.map unmarked with
      | []                     => finish 0
      | "exit" :: args         =>
        let status := (args.head?.bind String.toNat?).getD (← Act.machine).status
        Act.halt (.exit status)
      | ["exec"]               =>
        Act.modify fun m => { m with adopted := true }
        finish 0
      | "exec" :: name :: args =>
        adopt
        Act.halt (.exit (← Utility.run name args))
      | "return" :: args       =>
        let status := (args.head?.bind String.toNat?).getD (← Act.machine).status
        Act.halt (.returns status)
      | "break" :: _           => Act.halt .leavesLoop
      | "continue" :: _        => Act.halt .nextRound
      | name :: args           =>
        let status ← match (← Act.machine).functions.lookup name with
          | some body => Act.call args (evaluate fuel body)
          | none      => Utility.run name args
        for (n, _) in values do
          Act.assign n ((before.lookup n).getD (if n = "IFS" then " \t\n" else ""))
        finish status
    | .redirected inner rs     => do
      let before ← Act.machine
      for r in rs do
        let name ← match r.target with
          | .file w => unmarked <$> expandWhole fuel w
          | _       => pure ""
        redirect r name
      let status ← evaluate fuel inner
      if (← Act.machine).adopted then
        adopt
      else Act.modify fun m => { m with inlet := before.inlet, outlet := before.outlet }
      return status
    | .pipe first second       => do
      let (result, left) ← Act.apart (fun m => { m with written := [], outlet := .output })
        (evaluate fuel first)
      let (result', right) ← Act.apart (fun m =>
        { m with
          feed := left.written.reverse
          ended := hasEnded result
          inlet := .feed
          holdsInput := true }) (evaluate fuel second)
      rejoin left right.written
      let status ← statusOf result'
      let _ ← statusOf result
      finish status
    | .sequence first second   => do
      let _ ← evaluate fuel first
      match second with
      | .nothing => return (← Act.machine).status
      | second   => evaluate fuel second
    | .both first second       => do
      let status ← evaluate fuel first
      if status = 0 then evaluate fuel second else return status
    | .either first second     => do
      let status ← evaluate fuel first
      if status = 0 then return status else evaluate fuel second
    | .negated inner           => do
      let status ← evaluate fuel inner
      finish (if status = 0 then 1 else 0)
    | .background inner        => do
      let (result, part) ← Act.apart (fun m => { m with inlet := .bytes [] }) (evaluate fuel inner)
      Act.modify fun m =>
        { m with
          written := part.written
          lingering := m.lingering || (!hasEnded result && part.outlet == .output) }
      finish 0
    | .subshell inner          => do
      let (result, part) ← Act.apart id (evaluate fuel inner)
      rejoin part part.written
      finish (← statusOf result)
    | .loop c expected body    => do
      let status ← evaluate fuel c
      if (status == 0) == expected then
        if ← Act.round (evaluate fuel body) then evaluate fuel (.loop c expected body)
        else finish 0
      else finish 0
    | .forEach n ws body       => do
      let fields ← ws.mapM (expandWord fuel)
      for field in fields.flatten do
        Act.assign n (unmarked field)
        unless ← Act.round (evaluate fuel body) do return ← finish 0
      return (← Act.machine).status
    | .choice c thenBranch elseBranch => do
      let status ← evaluate fuel c
      if status = 0 then evaluate fuel thenBranch
      else
        match elseBranch with
        | .nothing => finish 0
        | other    => evaluate fuel other
    | .select subject as       => do
      let text := unmarked (← expandWhole fuel subject)
      evaluateArms fuel text as
    | .define n body           =>
      Act.modify fun m => { m with functions := (n, body) :: m.functions }
      finish 0

/-- Runs the first arm with a pattern that matches. -/
def evaluateArms : (fuel : Nat) → String → List (List Word × Command) → Act Nat
  | 0,        _,    _             => Act.halt .asleep
  | _,        _,    []            => finish 0
  | fuel + 1, text, (ws, c) :: as => do
    let patterns ← ws.mapM (expandWhole fuel)
    if patterns.any (Pattern.accepts · text) then evaluate fuel c
    else evaluateArms fuel text as

end

end NativeMessaging.Shell
