/-
Dates and times of day as settings files write them. A date alone has all its digits; a date
with a time of day may have short months, days and hours, and may name the zone of its
clock. Two times with zones are one if they are the same instant, whatever their zones; a
time without a zone has no order to one with a zone.
-/
import SystemMap.Yaml.Fault

namespace SystemMap.Yaml

-- ================================================================= dates

/-- A date. -/
structure Date where
  year : Nat
  month : Nat
  day : Nat
deriving DecidableEq

namespace Date

/-- The number of days of a month. -/
def daysOf (year month : Nat) : Nat :=
  let leap := year % 4 = 0 && (year % 100 ≠ 0 || year % 400 = 0)
  match month with
  | 2 => if leap then 29 else 28
  | 4 | 6 | 9 | 11 => 30
  | _ => 31

/-- Refuses a date that no calendar has. -/
def demand (d : Date) : Except Fault Unit :=
  if d.year = 0 then .error (.badDate "year 0 is out of range")
  else if d.month = 0 || 12 < d.month then .error (.badDate "month must be in 1..12")
  else if d.day = 0 || daysOf d.year d.month < d.day then
    .error (.badDate "day is out of range for month")
  else .ok ()

/-- The days from the first day of the first year on. -/
def ordinal (d : Date) : Nat :=
  let y := d.year - 1
  365 * y + y / 4 - y / 100 + y / 400 +
    (List.range (d.month - 1)).foldr (fun m days => daysOf d.year (m + 1) + days) d.day

/-- A number filled with zeros to a width. -/
def padZeros (width n : Nat) : String :=
  let ds := Nat.toDigits 10 n
  String.ofList (List.replicate (width - ds.length) '0' ++ ds)

/-- The text of a date. -/
def text (d : Date) : String :=
  padZeros 4 d.year ++ "-" ++ padZeros 2 d.month ++ "-" ++ padZeros 2 d.day

end Date

-- ================================================================= times

/-- A time of a day: date, clock, millionths of a second, and the offset of its zone in
minutes, if it has one. -/
structure Moment where
  date : Date
  hour : Nat
  minute : Nat
  second : Nat
  millionths : Nat
  zone : Option Int
deriving DecidableEq

namespace Moment

open Date (padZeros)

/-- Refuses a zone that is a day or more away. -/
def demandZone : Option Int → Except Fault Unit
  | none => .ok ()
  | some offset =>
    if offset.natAbs < Fault.minutesOfDay.natAbs then .ok () else .error (.farZone offset)

/-- Refuses a moment that no clock shows. The zone is looked at first. -/
def demand (m : Moment) : Except Fault Unit := do
  demandZone m.zone
  m.date.demand
  if 23 < m.hour then .error (.badDate "hour must be in 0..23")
  else if 59 < m.minute then .error (.badDate "minute must be in 0..59")
  else if 59 < m.second then .error (.badDate "second must be in 0..59")
  else .ok ()

/-- The millionths of a second from the first day of the first year on, in the zone of no
offset. A moment without a zone is taken as if it were in it. -/
def instant (m : Moment) : Int :=
  let minutes : Int := (m.date.ordinal * 24 + m.hour) * 60 + m.minute
  ((minutes - m.zone.getD 0) * 60 + m.second) * 1000000 + m.millionths

/-- Whether two moments have an order: both have a zone, or neither. -/
def isComparable (a b : Moment) : Bool := a.zone.isSome = b.zone.isSome

/-- Whether two moments are one. -/
def isSame (a b : Moment) : Bool := a.isComparable b && a.instant = b.instant

/-- The text of a zone. -/
def zoneText (offset : Int) : String :=
  (if offset < 0 then "-" else "+") ++ padZeros 2 (offset.natAbs / 60) ++ ":" ++
    padZeros 2 (offset.natAbs % 60)

/-- The text of a moment. -/
def text (m : Moment) : String :=
  m.date.text ++ " " ++ padZeros 2 m.hour ++ ":" ++ padZeros 2 m.minute ++ ":" ++
    padZeros 2 m.second ++
    (if m.millionths = 0 then "" else "." ++ padZeros 6 m.millionths) ++
    (match m.zone with
      | none => ""
      | some offset => zoneText offset)

end Moment

-- =============================================================== reading

/-- The number that decimal digits write. -/
def numberOf (ds : List Char) : Nat := ds.foldl (fun n c => 10 * n + (c.toNat - '0'.toNat)) 0

/-- Up to `most` digits off the front, but at least `least`. -/
def takeDigits (least most : Nat) (s : List Char) : Option (Nat × List Char) :=
  let ds := (s.take most).takeWhile Char.isDigit
  if ds.length < least then none else some (numberOf ds, s.drop ds.length)

/-- Takes a character off the front. -/
def takeChar (c : Char) : List Char → Option (List Char)
  | d :: rest => if c = d then some rest else none
  | [] => none

/-- A date off the front, with months and days of at least `least` digits. -/
def takeDate (least : Nat) (s : List Char) : Option (Date × List Char) := do
  let (year, s) ← takeDigits 4 4 s
  let (month, s) ← takeDigits least 2 (← takeChar '-' s)
  let (day, s) ← takeDigits least 2 (← takeChar '-' s)
  return (⟨year, month, day⟩, s)

/-- A date with all its digits, and nothing else. -/
def date? (s : List Char) : Option Date := do
  let (date, rest) ← takeDate 2 s
  if rest.isEmpty then some date else none

/-- Millionths from the digits after a point. -/
def millionthsOf (ds : List Char) : Nat :=
  numberOf (ds.take 6 ++ List.replicate (6 - ds.length) '0')

/-- Blanks off the front. -/
def dropSpace (s : List Char) : List Char := s.dropWhile fun c => c = ' ' || c = '\t'

/-- The zone at the end of a time. -/
def zone? (s : List Char) : Option (Option Int) :=
  match dropSpace s with
  | [] => if s.isEmpty then some none else none
  | ['Z'] => some (some 0)
  | sign :: rest => do
    let positive ← if sign = '+' then some true else if sign = '-' then some false else none
    let (hours, rest) ← takeDigits 1 2 rest
    let minutes ← match rest with
      | [] => some 0
      | ':' :: rest => do
        let (minutes, rest) ← takeDigits 2 2 rest
        if rest.isEmpty then some minutes else none
      | _ => none
    let offset : Int := 60 * hours + minutes
    return some (if positive then offset else -offset)

/-- A date and a time of day. -/
def moment? (s : List Char) : Option Moment := do
  let (date, s) ← takeDate 1 s
  let s ← match s with
    | 'T' :: rest | 't' :: rest => some rest
    | c :: _ => if c = ' ' || c = '\t' then some (dropSpace s) else none
    | [] => none
  let (hour, s) ← takeDigits 1 2 s
  let (minute, s) ← takeDigits 2 2 (← takeChar ':' s)
  let (second, s) ← takeDigits 2 2 (← takeChar ':' s)
  let (millionths, s) := match s with
    | '.' :: rest => (millionthsOf (rest.takeWhile Char.isDigit), rest.dropWhile Char.isDigit)
    | s => (0, s)
  let zone ← zone? s
  return ⟨date, hour, minute, second, millionths, zone⟩

end SystemMap.Yaml
