/-!
# Numbers in other bases

Escapes and number templates write numbers in base eight and sixteen, in small
letters.
-/

namespace EarningsLedger.Text

def baseChar (digit : Nat) : Char :=
  if digit < 10 then Char.ofNat (48 + digit) else Char.ofNat (87 + digit)

/-- A number in a base from two to sixteen, without leading zeros. -/
def baseDigits (base : Nat) (n : Nat) : List Char :=
  if base < 2 ∨ n < base then [baseChar n]
  else baseDigits base (n / base) ++ [baseChar (n % base)]
termination_by n
decreasing_by
  exact Nat.div_lt_self (by omega) (by omega)

/-- The last `places` places of a number in base sixteen, zeros included. -/
def padHex : (places : Nat) → Nat → List Char
  | 0, _ => []
  | places + 1, n => padHex places (n / 16) ++ [baseChar (n % 16)]

/-- The value of a digit of base sixteen, in small or capital letters. -/
def hexValue? (c : Char) : Option Nat :=
  let n := c.toNat
  if 48 ≤ n && n ≤ 57 then some (n - 48)
  else if 97 ≤ n && n ≤ 102 then some (n - 87)
  else if 65 ≤ n && n ≤ 70 then some (n - 55)
  else none

end EarningsLedger.Text
