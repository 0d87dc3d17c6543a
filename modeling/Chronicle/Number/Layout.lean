import Chronicle.Number.Extended

/-!
# Number texts

A decimal is laid out positionally while its leading digit stands near the
point and with an exponent elsewhere. The two layouts in use differ only in the
four decisions collected in `Layout`.
-/

namespace Chronicle

/-- How a decimal is written. Both forms always show a point or an exponent,
and an exponent always shows its sign. -/
structure Layout where
  /-- Lowest exponent of the leading digit that is written positionally. -/
  lowest : Int
  /-- Highest exponent of the leading digit that is written positionally. -/
  highest : Int
  /-- With an exponent, a single digit is followed by `.0`. -/
  pointBeforeExponent : Bool
  /-- Fewest digits of an exponent. -/
  exponentDigits : Nat

namespace Layout

/-- Numbers in JSON text: positional from `0.00001` to below `1e+16`. -/
def json : Layout := ⟨-5, 15, false, 1⟩

/-- Reals cast to text by a query: positional from `0.0001` to below
`1.0e+15`. -/
def query : Layout := ⟨-4, 14, true, 2⟩

def zeros (n : Nat) : List Char := List.replicate n '0'

/-- Digits around the point, at least one on each side. -/
def positional (ds : List Char) (exponent : Int) : List Char :=
  if 0 ≤ exponent then ds ++ zeros exponent.toNat ++ ['.', '0'] else
  let fraction := (-exponent).toNat
  if fraction < ds.length then
    ds.take (ds.length - fraction) ++ '.' :: ds.drop (ds.length - fraction)
  else
    '0' :: '.' :: zeros (fraction - ds.length) ++ ds

def exponentText (l : Layout) (e : Int) : List Char :=
  let ds := Nat.toDigits 10 e.natAbs
  (if e < 0 then '-' else '+') :: zeros (l.exponentDigits - ds.length) ++ ds

/-- One digit, the others after a point, and the exponent. -/
def scientific (l : Layout) (ds : List Char) (leading : Int) : List Char :=
  let fraction := match ds.drop 1 with
    | [] => if l.pointBeforeExponent then ['.', '0'] else []
    | rest => '.' :: rest
  ds.take 1 ++ fraction ++ 'e' :: l.exponentText leading

def render (l : Layout) (negative : Bool) (d : Decimal) : String :=
  let ds := Nat.toDigits 10 d.digits
  let leading := d.exponent + ds.length - 1
  let body :=
    if d.digits = 0 then ['0', '.', '0']
    else if l.lowest ≤ leading ∧ leading ≤ l.highest then positional ds d.exponent
    else l.scientific ds leading
  String.ofList (if negative then '-' :: body else body)

end Layout

/-- A number as JSON text: the fewest digits that read back. Negative zero
keeps its sign. -/
def Binary.jsonText (x : Binary) : String :=
  Layout.json.render x.negative x.shortest

/-- A real as a query casts it to text: fifteen significant digits. Zero has no
sign. -/
def Binary.queryText (x : Binary) : String :=
  Layout.query.render (x.negative && x.significand ≠ 0) (x.scaledDigits 15)

/-- A real as a query casts it to text. -/
def Double.queryText : Double → String
  | .finite x => x.queryText
  | .infinite negative => if negative then "-Inf" else "Inf"
  | .nan => ""

/-- The short name of a value in messages, where the finite ones do not
occur: `NaN`, `inf` or `-inf`. -/
def Double.name : Double → String
  | .finite x => x.jsonText
  | .infinite negative => if negative then "-inf" else "inf"
  | .nan => "NaN"

end Chronicle
