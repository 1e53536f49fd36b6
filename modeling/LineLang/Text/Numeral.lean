import LineLang.Text.Blank
import LineLang.Text.Digit

/-!
# Integer numerals

A numeral is an optional sign and decimal digits, with blanks around it. A single `_` may stand
between two digits.
-/

namespace LineLang.Numeral

/-- The longest numeral that is read, counted in digits: the limit of the host, as it is unless set otherwise.
The host keeps to it in writing as well. Integers of 32 bits and the standard codes are far from it, and all
integers are written in full here. -/
def maxDigits : Nat := 4300

/-- The information separators are blanks, but a numeral does not allow them around it. -/
def isPadding (c : Char) : Bool := isBlank c && !(0x1c ≤ c.toNat && c.toNat ≤ 0x1f)

/-- Digits with at most one `_` between neighbours, as their values. -/
def digits? : List Char → Option (List Nat)
  | [] => none
  | [c] => (digitValue? c).map ([·])
  | c :: '_' :: r => do return (← digitValue? c) :: (← digits? r)
  | c :: r => do return (← digitValue? c) :: (← digits? r)

/-- A numeral's body, without its sign. -/
def magnitude? (cs : List Char) : Option Nat := do
  let digits ← digits? cs
  if digits.length ≤ maxDigits then some (ofDigits digits) else none

def signed? : List Char → Option Int
  | '+' :: r => (magnitude? r).map Int.ofNat
  | '-' :: r => (magnitude? r).map fun n => -Int.ofNat n
  | cs => (magnitude? cs).map Int.ofNat

def parse? (s : String) : Option Int := signed? (trimBy isPadding s.toList)

end LineLang.Numeral
