/-
What can be wrong with a settings file as a text. Most faults are one: the text is not
well-formed. The others come from scalars that have the shape of a number, of a date or of a
character code, and stand for none.
-/
import SystemMap.Text.Numeral

namespace SystemMap.Yaml

/-- Why a text yields no value. -/
inductive Fault where
  /-- The text is not well-formed. -/
  | malformed
  /-- A number, written as one, has no value. -/
  | numeral (f : Text.Numeral.Fault)
  /-- A whole number in a base other than ten has no digits. -/
  | noDigits (base : Nat)
  /-- The weight of a sixtieth is too large for a double. -/
  | heavySixtieth
  /-- A date or a time, written as one, is none. -/
  | badDate (reason : String)
  /-- A zone is a day or more away, in minutes. -/
  | farZone (offset : Int)
  /-- A code belongs to no character. -/
  | noCharacter
  /-- A code needs more than 31 bits. -/
  | wideCode
deriving DecidableEq

namespace Fault

/-- The minutes of a day. -/
def minutesOfDay : Int := 24 * 60

/-- An offset as a message shows it: days, and the seconds that are left over. -/
def offsetText (offset : Int) : String :=
  let seconds := 60 * (offset.fmod minutesOfDay)
  "datetime.timedelta(days=" ++ toString (offset.fdiv minutesOfDay) ++
    (if seconds = 0 then "" else ", seconds=" ++ toString seconds) ++ ")"

/-- What a message says about a fault. -/
def message : Fault → String
  | .malformed => "malformed"
  | .numeral f => f.message
  | .noDigits base => "invalid literal for int() with base " ++ toString base ++ ": ''"
  | .heavySixtieth => "int too large to convert to float"
  | .badDate reason => reason
  | .farZone offset =>
    "offset must be a timedelta strictly between -timedelta(hours=24) and " ++
      "timedelta(hours=24), not " ++ offsetText offset ++ "."
  | .noCharacter => "chr() arg not in range(0x110000)"
  | .wideCode => "Python int too large to convert to C int"

end Fault

end SystemMap.Yaml
