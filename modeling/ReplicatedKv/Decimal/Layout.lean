import ReplicatedKv.Decimal.Shortest

/-! # Layout of floating-point numbers

How a shortest decimal is written down: in positions as long as it takes few zeros, with an
exponent otherwise.
-/

namespace ReplicatedKv.Decimal

/-- The decisions of a number format. -/
structure Layout where
  /-- The most digits before the point of a number that is written in positions. -/
  longestInteger : Nat
  /-- The most zeros between the point and the first digit of a number below one that is written in
      positions. -/
  leadingZeros : Nat
  /-- What stands before a positive exponent. -/
  positiveMark : String

/-- The text of the number whose digits begin `point` places left of the decimal point.  Places that
    the digits do not reach are filled with zeros. -/
def Layout.positive (l : Layout) (digits : String) (point : Int) : String :=
  let ds := digits.toList
  if 0 < point ∧ point ≤ l.longestInteger then
    let n := point.toNat
    let whole := ds.take n ++ List.replicate (n - ds.length) '0'
    let fraction := if ds.length ≤ n then ['0'] else ds.drop n
    String.ofList (whole ++ '.' :: fraction)
  else if point ≤ 0 ∧ -point ≤ l.leadingZeros then
    String.ofList ('0' :: '.' :: List.replicate (-point).toNat '0' ++ ds)
  else
    let exponent := point - 1
    let mark := if exponent < 0 then "" else l.positiveMark
    let fraction := if ds.length ≤ 1 then [] else '.' :: ds.drop 1
    String.ofList (ds.take 1 ++ fraction) ++ "e" ++ mark ++ toString exponent

def Layout.render (l : Layout) (x : Float) : String :=
  let bits := x.toBits.toNat
  let signBit := UInt64.size / 2
  let magnitude := bits % signBit
  let sign := if bits < signBit then "" else "-"
  if magnitude = 0 then sign ++ "0.0"
  else
    let s := (Binary.ofBits magnitude).shortest
    let digits := toString s.digits
    sign ++ l.positive digits (digits.length + s.exponent)

end ReplicatedKv.Decimal
