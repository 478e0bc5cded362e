import NativeMessaging.Shell.Token

/-!
# Shell — Arithmetic

Whole numbers in a script.  A text is read and computed in one pass: operators of one level take their
operands from the left, those of a later level bind closer, and a name stands for the number that its
variable holds.  A text may also assign what it computes.
-/

namespace NativeMessaging.Shell.Arithmetic

/-- A truth value as a number. -/
def ofBool (b : Bool) : Int := if b then 1 else 0

/-- An operator: its sign and what it computes, if anything. -/
abbrev Operator := String × (Int → Int → Option Int)

def comparison (sign : String) (holds : Int → Int → Bool) : Operator :=
  (sign, fun a b => some (ofBool (holds a b)))

/-- The operators by levels; of two signs that start alike the longer one comes first. -/
def levels : List (List Operator) :=
  [ [comparison "||" fun a b => a != 0 || b != 0],
    [comparison "&&" fun a b => a != 0 && b != 0],
    [comparison "==" (· == ·), comparison "!=" (· != ·)],
    [comparison "<=" fun a b => decide (a ≤ b), comparison ">=" fun a b => decide (b ≤ a),
      comparison "<" fun a b => decide (a < b), comparison ">" fun a b => decide (b < a)],
    [("+", fun a b => some (a + b)), ("-", fun a b => some (a - b))],
    [("*", fun a b => some (a * b)),
      ("/", fun a b => if b = 0 then none else some (a.tdiv b)),
      ("%", fun a b => if b = 0 then none else some (a.tmod b))] ]

def skipBlanks (cs : List Char) : List Char := cs.dropWhile fun c => c == ' ' || c == '\t' || c == '\n'

/-- The first of the operators whose sign comes next, and what follows it. -/
def operator? (operators : List Operator) (cs : List Char) :
    Option ((Int → Int → Option Int) × List Char) := do
  let (sign, compute) ← operators.find? fun (sign, _) => sign.toList.isPrefixOf cs
  some (compute, cs.drop sign.length)

/-- A number or a name at the start. -/
def operand (valueOf : String → Int) (cs : List Char) : Option (Int × List Char) :=
  let word := cs.takeWhile Token.isNamePart
  let rest := cs.drop word.length
  if word.isEmpty then none
  else if word.all Char.isDigit then do some (← (String.ofList word).toInt?, rest)
  else some (valueOf (String.ofList word), rest)

mutual

/-- Computes with the operators of the levels, or an operand where there are none. -/
def compute (valueOf : String → Int) :
    (fuel : Nat) → List (List Operator) → List Char → Option (Int × List Char)
  | 0,        _,                  _  => none
  | fuel + 1, [],                 cs =>
    match skipBlanks cs with
    | '(' :: cs => do
      let (v, rest) ← compute valueOf fuel levels cs
      match skipBlanks rest with
      | ')' :: rest => some (v, rest)
      | _           => none
    | '-' :: cs => do
      let (v, rest) ← compute valueOf fuel [] cs
      some (-v, rest)
    | '+' :: cs => compute valueOf fuel [] cs
    | '!' :: cs => do
      let (v, rest) ← compute valueOf fuel [] cs
      some (ofBool (v == 0), rest)
    | cs        => operand valueOf cs
  | fuel + 1, operators :: closer, cs => do
    let (v, rest) ← compute valueOf fuel closer cs
    computeMore valueOf fuel operators closer v rest

/-- Goes on with the operators of one level. -/
def computeMore (valueOf : String → Int) :
    (fuel : Nat) → List Operator → List (List Operator) → Int → List Char → Option (Int × List Char)
  | 0,        _,         _,      _, _  => none
  | fuel + 1, operators, closer, v, cs =>
    match operator? operators (skipBlanks cs) with
    | none             => some (v, cs)
    | some (apply, cs) => do
      let (w, rest) ← compute valueOf fuel closer cs
      computeMore valueOf fuel operators closer (← apply v w) rest

end

/-- What a text without an assignment computes. -/
def number (valueOf : String → Int) (cs : List Char) : Option Int := do
  let (v, rest) ← compute valueOf (10 * cs.length + 10) levels cs
  if (skipBlanks rest).isEmpty then some v else none

/-- The name that a text assigns to, and the text of its value: the part behind the equals sign, with the
name and the operator in front of it where there is one. -/
def assignment? (cs : List Char) : Option (String × List Char) :=
  let cs := skipBlanks cs
  let name := cs.takeWhile Token.isNamePart
  if name.head?.all Char.isDigit then none
  else
    match skipBlanks (cs.drop name.length) with
    | '=' :: '=' :: _ => none
    | '=' :: cs       => some (String.ofList name, cs)
    | c :: '=' :: cs  =>
      if c ∈ ['+', '-', '*', '/', '%'] then
        some (String.ofList name, name ++ [c, '('] ++ cs ++ [')'])
      else none
    | _               => none

/-- What a text computes, and the variable to which it assigns that, if it does. -/
def value (valueOf : String → Int) (text : String) : Option (Int × Option String) := do
  match assignment? text.toList with
  | some (name, cs) => some (← number valueOf cs, some name)
  | none            => some (← number valueOf text.toList, none)

end NativeMessaging.Shell.Arithmetic
