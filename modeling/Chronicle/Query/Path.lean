/-!
# Field names in paths

A query names a payload field in a quoted path, and the bytes between the
quotes are read as the body of a JSON string, without a check: a backslash
starts an escape, whatever follows it.

* `pathPoints` gives the code points that a name stands for.
* `sameName`: two names agree when their code points do, up to the first NUL
  of each.
-/

namespace Chronicle

namespace PathByte

/-- What a byte counts as where a hexadecimal digit should stand. For a digit
that is its value. -/
def hexValue (b : Nat) : Nat := (if b / 64 % 2 = 1 then b + 9 else b) % 16

/-- What four bytes count as where hexadecimal digits should stand. -/
def hex4 (a b c d : Nat) : Nat :=
  hexValue a * 4096 + hexValue b * 256 + hexValue c * 16 + hexValue d

/-- The code point that an escape without meaning stands for. -/
def unknown : Nat := 0x99999

/-- A byte that goes on with a character. -/
def isContinuation (b : Nat) : Bool := 0x80 ≤ b && b < 0xC0

/-- The bits of a code point in the first byte of its character. -/
def leadBits (b : Nat) : Nat :=
  if b < 0xE0 then b % 32 else if b < 0xF0 then b % 16 else b % 8

/-- Read one character as it stands. A byte that only goes on with one is read
by itself. -/
def readPlain (b : Nat) (rest : List Nat) : Nat × List Nat :=
  if b < 0xC0 then (b, rest) else
  let more := (rest.take 3).takeWhile isContinuation
  (more.foldl (fun n c => n * 64 + c % 64) (leadBits b), rest.drop more.length)

/-- Drop backslashes at line ends, each with its line end: those bytes stand
for nothing. -/
def dropLineEnds : List Nat → List Nat
  | 0x5C :: 0x0A :: rest => dropLineEnds rest
  | 0x5C :: 0x0D :: 0x0A :: rest => dropLineEnds rest
  | 0x5C :: 0x0D :: rest => dropLineEnds rest
  | 0x5C :: 0xE2 :: 0x80 :: 0xA8 :: rest => dropLineEnds rest
  | 0x5C :: 0xE2 :: 0x80 :: 0xA9 :: rest => dropLineEnds rest
  | bytes => bytes

/-- Read `u` and four digits, and a second such escape if the two are a
surrogate pair. Nothing is left when digits are missing. -/
def readLong : List Nat → Nat × List Nat
  | a :: b :: c :: d :: rest =>
    let high := hex4 a b c d
    match rest with
    | 0x5C :: 0x75 :: e :: f :: g :: h :: after =>
      let low := hex4 e f g h
      if high / 1024 = 54 ∧ low / 1024 = 55 then
        (high % 1024 * 1024 + low % 1024 + 0x10000, after)
      else (high, rest)
    | _ => (high, rest)
  | _ => (unknown, [])

/-- Read what follows a backslash that is not at a line end. -/
def readEscape : List Nat → Nat × List Nat
  | [] => (unknown, [])
  | 0x75 :: rest => readLong rest
  | 0x78 :: a :: b :: rest => (hexValue a * 16 + hexValue b, rest)
  | 0x78 :: _ => (unknown, [])
  | 0xE2 :: _ => (unknown, [])
  | 0x62 :: rest => (8, rest)
  | 0x74 :: rest => (9, rest)
  | 0x6E :: rest => (10, rest)
  | 0x76 :: rest => (11, rest)
  | 0x66 :: rest => (12, rest)
  | 0x72 :: rest => (13, rest)
  | 0x30 :: rest => (0, rest)
  | 0x22 :: rest => (0x22, rest)
  | 0x27 :: rest => (0x27, rest)
  | 0x2F :: rest => (0x2F, rest)
  | 0x5C :: rest => (0x5C, rest)
  | _ :: rest => (unknown, rest)

/-- Read one code point. Line ends before the end of the name stand for NUL. -/
def readPoint (bytes : List Nat) : Nat × List Nat :=
  match dropLineEnds bytes with
  | [] => (0, [])
  | 0x5C :: rest => readEscape rest
  | b :: rest => readPlain b rest

def readPoints : Nat → List Nat → List Nat
  | 0, _ => []
  | _, [] => []
  | fuel + 1, bytes => (readPoint bytes).1 :: readPoints fuel (readPoint bytes).2

end PathByte

/-- The code points that the name of a field stands for in a path. Each takes a
byte at least. -/
def pathPoints (name : String) : List Nat :=
  let bytes := name.toUTF8.toList.map UInt8.toNat
  PathByte.readPoints bytes.length bytes

/-- Two names agree up to their first NUL. -/
def sameName (a b : List Nat) : Bool := a.takeWhile (· ≠ 0) = b.takeWhile (· ≠ 0)

end Chronicle
