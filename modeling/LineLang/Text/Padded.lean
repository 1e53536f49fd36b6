/-!
# Padded numbers

Numbers written with at least a given count of digits.
-/

namespace LineLang

/-- A number in base `base`, with zeros in front up to `width` digits. -/
def padded (base width n : Nat) : String := String.ofList ((Nat.toDigits base n).leftpad width '0')

def hex (width n : Nat) : String := padded 16 width n

end LineLang
