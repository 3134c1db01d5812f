import EarningsLedger.Number.Shortest

/-!
# Text of floating point numbers

The plain text of a number has the shortest digits that read back. A number from
`10 ^ -4` up to `10 ^ 16` is written with the point in place, any other with an
exponent of at least two digits. The fixed, scientific and general forms of number
templates round the exact value to a count of places, a tie going to the even
neighbour.
-/

namespace EarningsLedger.Number

open Text

/-! ## Plain text -/

/-- The spellings of a number without digits. -/
structure FloatStyle where
  nan : String
  infinity : String
  deriving Repr

/-- Messages and number templates spell the values without digits in small letters. -/
def messageStyle : FloatStyle := ⟨"nan", "inf"⟩

/-- Log lines spell them the way they are written in program text. -/
def lineStyle : FloatStyle := ⟨"NaN", "Infinity"⟩

/-- A signed exponent with at least two digits. -/
def exponentDigits (e : Int) : List Char :=
  (if e < 0 then '-' else '+') :: padLeft 2 '0' (natDigits e.natAbs)

/-- Digits with the point in place; a whole number keeps one zero after it. -/
def positional (value : Scientific) : List Char :=
  let digits := natDigits value.digits
  match value.point with
  | .ofNat 0 => '0' :: '.' :: digits
  | .ofNat (k + 1) =>
    if digits.length ≤ k + 1 then digits ++ List.replicate (k + 1 - digits.length) '0' ++ ['.', '0']
    else digits.take (k + 1) ++ '.' :: digits.drop (k + 1)
  | .negSucc k => '0' :: '.' :: (List.replicate (k + 1) '0' ++ digits)

/-- Digits with an exponent; the point follows the first digit, if another comes. -/
def exponential (value : Scientific) : List Char :=
  let tail := 'e' :: exponentDigits (value.point - 1)
  match natDigits value.digits with
  | [] => tail
  | [d] => d :: tail
  | d :: ds => d :: '.' :: ds ++ tail

/-- The shortest text that reads back as the number. -/
def Binary64.chars (style : FloatStyle) : Binary64 → List Char
  | .nan => style.nan.toList
  | .infinite negative => (if negative then ['-'] else []) ++ style.infinity.toList
  | .finite negative mantissa exponent =>
    let sign := if negative then ['-'] else []
    if mantissa = 0 then sign ++ ['0', '.', '0']
    else
      let value := shortest mantissa exponent
      if value.point ≤ -4 ∨ 16 < value.point then sign ++ exponential value
      else sign ++ positional value

/-- The plain text of a number in messages. -/
def Binary64.text (x : Binary64) : String := String.ofList (x.chars messageStyle)

/-! ## A given count of places -/

/-- The magnitude with exactly `places` digits after the point. -/
def fixedPlaces (places : Nat) (num den : Nat) : List Char :=
  let rounded := roundHalfEven (num * tenPow places) den
  let digits := padLeft (places + 1) '0' (natDigits rounded)
  let whole := digits.take (digits.length - places)
  if places = 0 then whole else whole ++ '.' :: digits.drop (digits.length - places)

/-- The magnitude rounded to `count` digits, with its power of ten. -/
def roundedDigits (count : Nat) (num den : Nat) : Nat × Int :=
  if num = 0 then (0, 1)
  else
    let top := Shortest.magnitude num den
    let scaled := scaleTen num den (Int.ofNat count - top)
    let rounded := roundHalfEven scaled.1 scaled.2
    if rounded = tenPow count then (tenPow (count - 1), top + 1) else (rounded, top)

/-- The magnitude with one digit before the point, `places` after it and an exponent. -/
def scientificPlaces (places : Nat) (num den : Nat) : List Char :=
  let value := roundedDigits (places + 1) num den
  let digits := padLeft (places + 1) '0' (natDigits value.1)
  let mark := if places = 0 then digits else digits.take 1 ++ '.' :: digits.drop 1
  mark ++ 'e' :: exponentDigits (value.2 - 1)

/-- Takes the zeros at the end of a fraction off, and a point left bare. -/
def stripFraction (cs : List Char) : List Char :=
  if cs.contains '.' then trimPoint (cs.reverse.dropWhile (· == '0')) else cs
where
  trimPoint : List Char → List Char
    | '.' :: rest => rest.reverse
    | rest => rest.reverse

/-- The magnitude with `count` digits, in whichever form is shorter. -/
def generalPlaces (count : Nat) (keepZeros : Bool) (num den : Nat) : List Char :=
  let count := max count 1
  let value := roundedDigits count num den
  let power := value.2 - 1
  if power < -4 ∨ Int.ofNat count ≤ power then
    let full := scientificPlaces (count - 1) num den
    if keepZeros then full
    else stripFraction (full.takeWhile (· != 'e')) ++ full.dropWhile (· != 'e')
  else
    let full := fixedPlaces (Int.ofNat count - 1 - power).toNat num den
    if keepZeros then full else stripFraction full

end EarningsLedger.Number
