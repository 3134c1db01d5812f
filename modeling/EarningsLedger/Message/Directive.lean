import EarningsLedger.Text.Digits

/-!
# Message templates

A template is a text with directives, each opened by a percent sign: an optional key in
brackets, flags, a width, a precision, and a letter that says how to show a value.
`Piece.ofChars` cuts a template into plain characters and directives. A directive that
ends too early is kept without its letter, so that whoever fills the template in meets
the faults of a template in their order.
-/

namespace EarningsLedger.Message

open Text

/-- A width or precision: absent, written out, or taken from the values. -/
inductive Measure where
  | none
  | fixed (n : Nat)
  | given
  deriving DecidableEq, Repr

/-- The flags of a directive. -/
structure Flags where
  left : Bool
  plus : Bool
  blank : Bool
  alternate : Bool
  zeros : Bool
  deriving DecidableEq, Repr

/-- A place in a template where a value is shown. -/
structure Directive where
  key : Option String
  flags : Flags
  width : Measure
  precision : Measure
  letter : Option Char
  position : Nat
  deriving DecidableEq, Repr

/-- A part of a template. -/
inductive Piece where
  | plain (c : Char)
  | directive (d : Directive)
  | openKey
  deriving DecidableEq, Repr

/-- A key up to its closing bracket, brackets inside it in pairs, and what follows. -/
def keyOf : (depth : Nat) → List Char → Option (List Char × List Char)
  | _, [] => none
  | depth, c :: rest =>
    if c = ')' then
      match depth with
      | 0 => some ([], rest)
      | depth + 1 => (keyOf depth rest).map fun found => (c :: found.1, found.2)
    else
      (keyOf (if c = '(' then depth + 1 else depth) rest).map fun found => (c :: found.1, found.2)

def isFlag (c : Char) : Bool := c == '-' || c == '+' || c == ' ' || c == '#' || c == '0'

def flagsOf (cs : List Char) : Flags :=
  let flags := cs.takeWhile isFlag
  ⟨flags.contains '-', flags.contains '+', flags.contains ' ', flags.contains '#',
    flags.contains '0'⟩

/-- A measure in front, and what follows. -/
def measureOf : List Char → Measure × List Char
  | '*' :: rest => (.given, rest)
  | cs =>
    let digits := spanDigits cs
    (if digits.1 = [] then .none else .fixed (foldDigits 0 digits.1), digits.2)

/-- The precision behind a point; a point alone means no digits. -/
def precisionOf : List Char → Measure × List Char
  | '.' :: rest =>
    match measureOf rest with
    | (.none, rest) => (.fixed 0, rest)
    | found => found
  | cs => (.none, cs)

def skipSize : List Char → List Char
  | c :: rest => if c = 'h' ∨ c = 'l' ∨ c = 'L' then rest else c :: rest
  | [] => []

/-- A directive behind its key, and what follows; `size` is the length of the template. -/
def directiveOf (size : Nat) (key : Option String) (cs : List Char) : Directive × List Char :=
  let width := measureOf (cs.dropWhile isFlag)
  let precision := precisionOf width.2
  let rest := skipSize precision.2
  (⟨key, flagsOf cs, width.1, precision.1, rest.head?, size - rest.length⟩, rest.drop 1)

/-- The pieces of a template of length `size`, taking at most `steps` of them. Two percent
signs in a row stand for one; a percent sign that closes a directive is a letter like any
other. -/
def piecesFrom (size : Nat) : (steps : Nat) → List Char → List Piece
  | 0, _ => []
  | _ + 1, [] => []
  | steps + 1, '%' :: '%' :: rest => .plain '%' :: piecesFrom size steps rest
  | steps + 1, '%' :: '(' :: rest =>
    match keyOf 0 rest with
    | none => [.openKey]
    | some (key, rest) =>
      let found := directiveOf size (some (String.ofList key)) rest
      .directive found.1 :: piecesFrom size steps found.2
  | steps + 1, '%' :: rest =>
    let found := directiveOf size none rest
    .directive found.1 :: piecesFrom size steps found.2
  | steps + 1, c :: rest => .plain c :: piecesFrom size steps rest

def Piece.ofChars (cs : List Char) : List Piece := piecesFrom cs.length cs.length cs

end EarningsLedger.Message
