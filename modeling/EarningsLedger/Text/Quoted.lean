import EarningsLedger.Text.Hex
import EarningsLedger.Text.Printable

/-!
# Quoted text

Messages quote a text when its ends must be visible. The quote mark is the
apostrophe, unless the text holds apostrophes and no double quote. Backslash, the
quote mark and the characters that do not print are escaped, each with the
shortest escape that can hold it.
-/

namespace EarningsLedger.Text

/-- The quote mark for a text that holds the given characters. -/
def quoteMark (cs : List Char) : Char :=
  if cs.contains '\'' && !cs.contains '"' then '"' else '\''

def quotedChar (mark c : Char) : List Char :=
  if c = mark || c = '\\' then ['\\', c]
  else if c = '\t' then ['\\', 't']
  else if c = '\n' then ['\\', 'n']
  else if c = '\r' then ['\\', 'r']
  else if isPrintable c then [c]
  else if c.toNat < 256 then '\\' :: 'x' :: padHex 2 c.toNat
  else if c.toNat < 65536 then '\\' :: 'u' :: padHex 4 c.toNat
  else '\\' :: 'U' :: padHex 8 c.toNat

def quoted (cs : List Char) : List Char :=
  let mark := quoteMark cs
  mark :: cs.flatMap (quotedChar mark) ++ [mark]

/-- One byte inside quotes; only printable ASCII shows as itself. -/
def quotedByte (mark : Char) (b : UInt8) : List Char :=
  let c := Char.ofNat b.toNat
  if b.toNat < 128 then quotedChar mark c else '\\' :: 'x' :: padHex 2 b.toNat

/-- A run of bytes in quotes, marked with a leading letter. -/
def quotedBytes (bytes : List UInt8) : List Char :=
  let mark := quoteMark (bytes.map fun b => Char.ofNat b.toNat)
  'b' :: mark :: bytes.flatMap (quotedByte mark) ++ [mark]

end EarningsLedger.Text
