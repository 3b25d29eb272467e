/-!
# Hexadecimal numbers

The digits beyond nine are lower-case letters.
-/

namespace Offside.Text

/-- A digit of a hexadecimal number. -/
def hexDigit (value : Nat) : Char :=
  if value < 10 then Char.ofNat (48 + value) else Char.ofNat (87 + value)

/-- The hexadecimal digits of a number below a power of sixteen, without leading zeros. -/
def hexDigits : (places value : Nat) → List Char
  | 0, _ => []
  | places + 1, value =>
      if value < 16 then [hexDigit value]
      else hexDigits places (value / 16) ++ [hexDigit (value % 16)]

end Offside.Text
