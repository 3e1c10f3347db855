/-
The whole part of a double: the whole number that is left when all digits after the point
are dropped. Infinity has none, and neither has what is no number.
-/
import SystemMap.Decimal.Nearest

namespace SystemMap.Decimal

/-- Why a double has no whole part. -/
inductive Unbounded where
  | infinite
  | notANumber
deriving DecidableEq

/-- What a message says about a double without a whole part. -/
def Unbounded.message : Unbounded → String
  | .infinite => "cannot convert float infinity to integer"
  | .notANumber => "cannot convert float NaN to integer"

/-- The whole part of the magnitude whose bits are given: the mantissa shifted to where its
last digit counts one. -/
def wholeMagnitude (bits : Nat) : Nat :=
  let stored := bits / Nat.pow 2 52
  let mantissa := Nat.pow 2 52 + bits % Nat.pow 2 52
  if stored < 1023 then 0
  else if 1075 ≤ stored then mantissa * Nat.pow 2 (stored - 1075)
  else mantissa / Nat.pow 2 (1075 - stored)

/-- The whole part of a double. -/
def truncate (x : Float) : Except Unbounded Int :=
  let bits := x.toBits.toNat
  let magnitude := bits % Nat.pow 2 63
  if infinityBits < magnitude then .error .notANumber
  else if magnitude = infinityBits then .error .infinite
  else .ok (if bits < Nat.pow 2 63 then wholeMagnitude magnitude else -(wholeMagnitude magnitude : Int))

end SystemMap.Decimal
