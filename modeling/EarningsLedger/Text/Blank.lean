/-!
# Blank characters

Two classes of blank characters are in use. `isSpace` is the white space of
Unicode, which surrounds a number in a request field or handed to a column. `isBlank`
adds the four information separators, and is what surrounds a decimal number and what
separates the parts of a settings file.
-/

namespace EarningsLedger.Text

def isSpace (c : Char) : Bool :=
  let n := c.toNat
  (9 ≤ n && n ≤ 13) || n == 32 || n == 133 || n == 160 || n == 5760 ||
    (8192 ≤ n && n ≤ 8202) || n == 8232 || n == 8233 || n == 8239 || n == 8287 || n == 12288

/-- White space, or one of the four information separators. -/
def isBlank (c : Char) : Bool :=
  isSpace c || (28 ≤ c.toNat && c.toNat ≤ 31)

/-- Blank, but not the end of a line. -/
def isInlineBlank (c : Char) : Bool :=
  isBlank c && c != '\n' && c != '\r'

/-- Takes the characters of a class off both ends. -/
def trimBoth (drop : Char → Bool) (cs : List Char) : List Char :=
  ((cs.dropWhile drop).reverse.dropWhile drop).reverse

/-- Takes the characters of a class off the end. -/
def trimEnd (drop : Char → Bool) (cs : List Char) : List Char :=
  (cs.reverse.dropWhile drop).reverse

end EarningsLedger.Text
