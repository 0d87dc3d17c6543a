import Chronicle.Text.Blank
import Chronicle.Time.Instant

/-!
# Reading dates and times

Two readers of RFC 3339 texts. The strict one (`Instant.ofStrict?`) reads the
time stamps of stored rows. The lenient one (`Instant.ofLenient`) reads those
in JSON: it allows white space between the parts, missing leading zeros, years
of any length after a sign, and `UTC` for the offset. It reports the first
flaw; parts are checked as they are read, the date as a whole at the end.
-/

namespace Chronicle

/-- Why a text is not a date and time. -/
inductive TimeFlaw where
  | outOfRange
  | impossible
  | invalid
  | tooShort
  | tooLong
  deriving DecidableEq

def TimeFlaw.message : TimeFlaw → String
  | outOfRange => "input is out of range"
  | impossible => "no possible date and time matching input"
  | invalid => "input contains invalid characters"
  | tooShort => "premature end of input"
  | tooLong => "trailing input"

namespace Instant

/-- A reader takes its part from the front of the remaining text. -/
abbrev Reading := StateT (List Char) (Except TimeFlaw)

def refuse {α : Type} (flaw : TimeFlaw) : Reading α := fun _ => .error flaw

def skipBlanks : Reading Unit := modify trimBlanks

def valueOf (ds : List Char) : Nat := ds.foldl (fun n c => 10 * n + (c.toNat - 48)) 0

/-- At least one digit and at most `most`, as a number of 63 bits. -/
def digits (most : Nat) : Reading Nat := fun cs =>
  match (cs.take most).takeWhile Char.isDigit with
  | [] => .error (if cs = [] then .tooShort else .invalid)
  | ds =>
    let n := valueOf ds
    if n ≤ 9223372036854775807 then .ok (n, cs.drop ds.length) else .error .outOfRange

/-- One or two digits after white space, as a number within bounds. -/
def bounded (low high : Nat) : Reading Nat := do
  skipBlanks
  let n ← digits 2
  if low ≤ n ∧ n ≤ high then return n else refuse .outOfRange

def mark (allowed : List Char) : Reading Char := fun
  | [] => .error .tooShort
  | c :: cs => if c ∈ allowed then .ok (c, cs) else .error .invalid

/-- Digits of a year after its sign, if it has one. -/
def signedYear : Reading Int := do
  match ← get with
  | '-' :: cs => do
    set cs
    return -(← digits cs.length : Nat)
  | '+' :: cs => do
    set cs
    return (← digits cs.length : Nat)
  | _ => return (← digits 4 : Nat)

/-- A year: up to four digits, or any number after a sign. It has to fit a
signed 32-bit integer. -/
def year : Reading Int := do
  let n ← signedYear
  if -2147483648 ≤ n ∧ n ≤ 2147483647 then return n else refuse .outOfRange

/-- A fraction in nanoseconds, if a point follows: nine digits count and more
are dropped. -/
def fraction : Reading Nat := do
  match ← get with
  | '.' :: cs => do
    set cs
    let n ← digits 9
    let used := cs.length - (← get).length
    modify (·.dropWhile Char.isDigit)
    return n * Nat.pow 10 (9 - used)
  | _ => return 0

def byteCount (cs : List Char) : Nat := (String.ofList cs).utf8ByteSize

/-- Two digits, each by itself. -/
def digitPair : Reading (Nat × Nat) := fun cs =>
  match cs with
  | a :: b :: rest =>
    if a.isDigit ∧ b.isDigit then .ok ((a.toNat - 48, b.toNat - 48), rest)
    else .error .invalid
  | _ => .error (if byteCount cs < 2 then .tooShort else .invalid)

/-- An offset in seconds east of UTC: `Z`, or a sign, hours, what `separator`
takes off, and minutes. -/
def offset (separator : Reading Unit) : Reading Int := do
  let sign ← mark ['Z', 'z', '+', '-', '−']
  if sign = 'Z' ∨ sign = 'z' then return 0
  let (h, h') ← digitPair
  separator
  let (m, m') ← digitPair
  if 5 < m then refuse .outOfRange
  let seconds : Int := ((10 * h + h') * 3600 + (10 * m + m') * 60 : Nat)
  return if sign = '+' then seconds else -seconds

/-- The first and the last year that dates can have. -/
def yearRange : Int × Int := (-262143, 262142)

/-- The instant of a local date and time at an offset. -/
def assemble (date : Date) (hour minute second nanosecond : Nat) (offset : Int) :
    Except TimeFlaw Instant :=
  if ¬ date.Exists ∨ date.year < yearRange.1 ∨ yearRange.2 < date.year then .error .outOfRange
  else if offset ≤ -86400 ∨ 86400 ≤ offset then .error .outOfRange
  else
    let leap := second = 60
    let time : Int := hour * 3600 + minute * 60 + (if leap then 59 else second)
    let utc := date.toDays * 86400 + time - offset
    let year := (Date.ofDays (utc / 86400)).year
    if year < yearRange.1 ∨ yearRange.2 < year then .error .impossible
    else .ok ⟨utc, nanosecond + if leap then 1000000000 else 0⟩

/-- What stands between date and time. -/
def dateEnd : Reading Unit := discard (mark ['T', 't', ' '])

/-- A mark after white space. -/
def lenientMark (c : Char) : Reading Unit := do
  skipBlanks
  discard (mark [c])

/-- Colons and white space, any number of them. -/
def skipColons : Reading Unit := modify (·.dropWhile fun c => c = ':' || isBlank c)

/-- The offset of a lenient text, where `UTC` is one too. -/
def lenientOffset : Reading Int := do
  match ← get with
  | u :: t :: c :: rest =>
    if u.toUpper = 'U' ∧ t.toUpper = 'T' ∧ c.toUpper = 'C' then
      set rest
      return 0
    else offset skipColons
  | _ => offset skipColons

def lenient : Reading Instant := do
  skipBlanks
  let year ← year
  lenientMark '-'
  let month ← bounded 1 12
  lenientMark '-'
  let day ← bounded 1 31
  dateEnd
  let hour ← bounded 0 23
  lenientMark ':'
  let minute ← bounded 0 59
  lenientMark ':'
  let second ← bounded 0 60
  let nanosecond ← fraction
  skipBlanks
  let offset ← lenientOffset
  skipBlanks
  if (← get) ≠ [] then refuse .tooLong
  assemble ⟨year, month, day⟩ hour minute second nanosecond offset

def ofLenient (text : String) : Except TimeFlaw Instant := lenient.run' text.toList

/-- A number of exactly `width` digits, at most `high`. -/
def exactly (width high : Nat) : Reading Nat := fun cs =>
  let ds := cs.take width
  if ds.length = width ∧ ds.all Char.isDigit ∧ valueOf ds ≤ high then
    .ok (valueOf ds, cs.drop width)
  else .error .invalid

def strict : Reading Instant := do
  let year ← exactly 4 9999
  discard (mark ['-'])
  let month ← exactly 2 12
  discard (mark ['-'])
  let day ← exactly 2 31
  dateEnd
  let hour ← exactly 2 23
  discard (mark [':'])
  let minute ← exactly 2 59
  discard (mark [':'])
  let second ← exactly 2 60
  let nanosecond ← fraction
  let offset ← offset (discard (mark [':']))
  if (← get) ≠ [] then refuse .tooLong
  assemble ⟨year, month, day⟩ hour minute second nanosecond offset

def ofStrict? (text : String) : Option Instant := (strict.run' text.toList).toOption

end Instant

end Chronicle
