/-!
# Hex — hexadecimal digits

Characters are written by their code wherever they may not stand for themselves.  This file defines
`Hex.byte`, which writes a byte as two digits, and `Hex.digit?`, which reads one digit.
-/

namespace HeaderAudit
namespace Hex

/-- The two digits of a number below 256, in lower case. -/
def byte (n : Nat) : List Char :=
  [Nat.digitChar (n / 16), Nat.digitChar (n % 16)]

/-- The value of a digit, in lower or upper case. -/
def digit? (c : Char) : Option Nat :=
  if c.isDigit then some (c.toNat - '0'.toNat)
  else if 'a' ≤ c ∧ c ≤ 'f' then some (c.toNat - 'a'.toNat + 10)
  else if 'A' ≤ c ∧ c ≤ 'F' then some (c.toNat - 'A'.toNat + 10)
  else none

end Hex
end HeaderAudit
