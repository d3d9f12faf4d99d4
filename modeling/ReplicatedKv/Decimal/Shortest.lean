/-! # Shortest decimals

The decimal with the fewest digits that reads back as a given binary floating-point number, and of
those with equally few digits the one nearest to it.

A positive finite number is `m · 2^q`.  The reals that round to it form an interval, whose ends
belong to it iff `m` is even.  Grids of multiples of a power of ten are tried from the coarsest to
the finest: the first with a point in the interval gives the fewest digits, and if the interval has
a point of a grid, it has one of the two that enclose the number.
-/

namespace ReplicatedKv.Decimal

/-- A positive finite binary number `m · 2^q`. -/
structure Binary where
  m : Nat
  q : Int
  /-- Whether the next smaller number is only half as far away as the next larger one. -/
  narrowBelow : Bool := false

/-- The number with the given magnitude bits of the 64-bit format: eleven bits of exponent above
    52 bits of fraction. -/
def Binary.ofBits (bits : Nat) : Binary :=
  let unit : Nat := 0x10000000000000
  let fraction : Nat := bits % unit
  let exponent : Nat := bits / unit
  -- without an exponent the leading bit is not implied
  if exponent = 0 then ⟨fraction, -1074, false⟩
  else ⟨unit + fraction, (exponent : Int) - 1075, fraction = 0 ∧ 1 < exponent⟩

/-- The number `digits · 10^exponent`. -/
structure Scaled where
  digits : Nat
  exponent : Int

/-- The numerator of `x · 2^(q-2) / 10^unit`. -/
def numerator (q unit : Int) (x : Nat) : Nat := 
  x * Nat.pow 2 (q - 2).toNat * Nat.pow 10 (-unit).toNat

/-- The denominator of `x · 2^(q-2) / 10^unit`. -/
def denominator (q unit : Int) : Nat := Nat.pow 2 (2 - q).toNat * Nat.pow 10 unit.toNat

/-- Whether `point · 10^unit` rounds to the number.  In quarters of its last place, the interval
    reaches two upward, and two or one downward. -/
def Binary.contains (b : Binary) (unit : Int) (point : Nat) : Bool :=
  let low := numerator b.q unit (4 * b.m - if b.narrowBelow then 1 else 2)
  let high := numerator b.q unit (4 * b.m + 2)
  let here := point * denominator b.q unit
  -- ties round to even, so the ends belong to the interval of an even number only
  if b.m % 2 = 0 then low ≤ here ∧ here ≤ high else low < here ∧ here < high

/-- The point of a grid nearest to the number among the enclosing ones that round to it.  Of two
    equally near ones it is the even one. -/
def Binary.nearest? (b : Binary) (unit : Int) : Option Nat :=
  let num := numerator b.q unit (4 * b.m)
  let den := denominator b.q unit
  let below := num / den
  match b.contains unit below, b.contains unit (below + 1) with
  | false, false => none
  | true, false => some below
  | false, true => some (below + 1)
  | true, true =>
    let twice := 2 * (num % den)
    some (if twice < den ∨ twice = den ∧ below % 2 = 0 then below else below + 1)

/-- The first hit on the grids of `10^(unit-1)`, `10^(unit-2)`, and so on, `count` of them. -/
def Binary.search (b : Binary) : (count : Nat) → (unit : Int) → Scaled
  | 0, unit => ⟨0, unit⟩
  | count + 1, unit =>
    match b.nearest? (unit - 1) with
    | some digits => ⟨digits, unit - 1⟩
    | none => b.search count (unit - 1)

/-- The shortest decimal of a positive finite number.  The grids reach from above the largest
    number of the format down to below the last place of the smallest. -/
def Binary.shortest (b : Binary) : Scaled := b.search 640 310

end ReplicatedKv.Decimal
