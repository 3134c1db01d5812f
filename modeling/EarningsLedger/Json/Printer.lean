import EarningsLedger.Json.Basic
import EarningsLedger.Number.FloatText
import EarningsLedger.Text.Hex

/-!
# Printed JSON

A tree is printed on one line, with a blank after each comma and colon. In a text the
quote, the backslash and the control characters are escaped and nothing else, so no
character below the blank ever shows.
-/

namespace EarningsLedger.Json

open Number Text

def escapedChar (c : Char) : List Char :=
  if c = '"' then ['\\', '"']
  else if c = '\\' then ['\\', '\\']
  else if c = '\n' then ['\\', 'n']
  else if c = '\r' then ['\\', 'r']
  else if c = '\t' then ['\\', 't']
  else if c.toNat = 8 then ['\\', 'b']
  else if c.toNat = 12 then ['\\', 'f']
  else if c.toNat < 32 then '\\' :: 'u' :: padHex 4 c.toNat
  else [c]

def quotedText (s : String) : List Char := '"' :: s.toList.flatMap escapedChar ++ ['"']

mutual

def print : Json → List Char
  | null => ['n', 'u', 'l', 'l']
  | bool b => if b then ['t', 'r', 'u', 'e'] else ['f', 'a', 'l', 's', 'e']
  | int n => intDigits n
  | real x => x.chars lineStyle
  | text s => quotedText s
  | array [] => ['[', ']']
  | array (item :: rest) => '[' :: print item ++ printItems rest
  | object [] => ['\x7b', '\x7d']
  | object ((name, value) :: rest) =>
    '\x7b' :: quotedText name ++ ':' :: ' ' :: print value ++ printMembers rest

/-- The items behind the first, and the closing bracket. -/
def printItems : List Json → List Char
  | [] => [']']
  | item :: rest => ',' :: ' ' :: print item ++ printItems rest

/-- The members behind the first, and the closing brace. -/
def printMembers : List (String × Json) → List Char
  | [] => ['\x7d']
  | (name, value) :: rest =>
    ',' :: ' ' :: quotedText name ++ ':' :: ' ' :: print value ++ printMembers rest

end

def line (tree : Json) : String := String.ofList tree.print

end EarningsLedger.Json
