import Chronicle.Time.Calendar

/-!
# Instants

A point in time in UTC, counted in seconds since 1970-01-01 and nanoseconds. A
leap second shares the second before it and has a billion nanoseconds more.
`Instant.text` is the one form in which instants are written.
-/

namespace Chronicle

structure Instant where
  second : Int
  nanosecond : Nat
  deriving DecidableEq, Inhabited

namespace Instant

/-- Digits filled with zeros to a width. -/
def padded (width n : Nat) : String :=
  let ds := Nat.toDigits 10 n
  String.ofList (List.replicate (width - ds.length) '0' ++ ds)

/-- A year: four digits, and a sign when it has more or is before year 0. -/
def yearText (year : Int) : String :=
  if 0 ≤ year ∧ year ≤ 9999 then padded 4 year.toNat
  else (if year < 0 then "-" else "+") ++ padded 4 year.natAbs

/-- A fraction of a second: none, or three, six or nine digits, the fewest that
are exact. -/
def fractionText (nanosecond : Nat) : String :=
  if nanosecond = 0 then ""
  else if nanosecond % 1000000 = 0 then "." ++ padded 3 (nanosecond / 1000000)
  else if nanosecond % 1000 = 0 then "." ++ padded 6 (nanosecond / 1000)
  else "." ++ padded 9 nanosecond

/-- The instant as a date and time in UTC. -/
def text (i : Instant) : String :=
  let date := Date.ofDays (i.second / 86400)
  let time := (i.second % 86400).toNat
  let leap := 1000000000 ≤ i.nanosecond
  yearText date.year ++ "-" ++ padded 2 date.month ++ "-" ++ padded 2 date.day ++ "T" ++
    padded 2 (time / 3600) ++ ":" ++ padded 2 (time / 60 % 60) ++ ":" ++
    padded 2 (time % 60 + if leap then 1 else 0) ++
    fractionText (i.nanosecond % 1000000000) ++ "Z"

end Instant

end Chronicle
