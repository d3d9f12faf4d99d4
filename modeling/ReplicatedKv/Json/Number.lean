import ReplicatedKv.Json.Scan

/-! # Numbers

No document that is read here holds a wanted number, so a number matters in two ways only.

* `readNumber` — a number that stands where something else is expected is named in the message,
  so it is read and rounded to 64 bits.
* `skipNumber` — a number inside a value that nobody wants is only checked for its form.

The two differ in the fault of a number that is cut off at the end of the document.
-/

namespace ReplicatedKv.Json

def isDigit (b : UInt8) : Bool := 0x30 ≤ b.toNat && b.toNat ≤ 0x39

/-- The values of the digits at the front, and the rest. -/
def takeDigits (s : Bytes) : List Nat × Bytes :=
  ((s.takeWhile isDigit).map fun b => b.toNat - 0x30, s.dropWhile isDigit)

def startsWithDigit : Bytes → Bool
  | [] => false
  | b :: _ => isDigit b

/-- Reads one or more digits.  `atEnd` is the fault where the document ends instead. -/
def readDigits (atEnd : Fault) (s : Bytes) : Except Fault (List Nat × Bytes) :=
  match s with
  | [] => .error atEnd
  | b :: _ => if isDigit b then .ok (takeDigits s) else .error .invalidNumber

/-- A number as it is written. -/
structure Numeral where
  negative : Bool
  integer : List Nat
  fraction : Option (List Nat) := none
  exponent : Option Int := none

/-! ## Form -/

/-- Reads the digits before the point.  A leading zero has to stand alone. -/
def readInteger (atEnd : Fault) (s : Bytes) : Except Fault (List Nat × Bytes) :=
  match s with
  | [] => .error atEnd
  | b :: rest =>
    if b = 0x30 then
      if startsWithDigit rest then .error .invalidNumber else .ok ([0], rest)
    else if isDigit b then .ok (takeDigits s)
    else .error .invalidNumber

/-- Reads a point and the digits after it, if there is a point. -/
def readFraction (atEnd : Fault) : Bytes → Except Fault (Option (List Nat) × Bytes)
  | 0x2e :: s =>
    match readDigits atEnd s with
    | .error fault => .error fault
    | .ok (digits, rest) => .ok (some digits, rest)
  | s => .ok (none, s)

/-- The largest exponent that is told apart from larger ones.  Long before it a number is zero or
    out of range, unless it is written with about as many digits. -/
def exponentLimit : Nat := 0x7fffffff

/-- The number that the digits of an exponent stand for, the highest first, up to the limit. -/
def exponentValue (digits : List Nat) : Nat :=
  digits.foldl (fun n d => Nat.min exponentLimit (10 * n + d)) 0

/-- Reads a sign, if there is one: whether it is a minus. -/
def readSign : Bytes → Bool × Bytes
  | 0x2b :: s => (false, s)
  | 0x2d :: s => (true, s)
  | s => (false, s)

def signed (negative : Bool) (n : Nat) : Int := if negative then -n else n

def readExponent (atEnd : Fault) : Bytes → Except Fault (Option Int × Bytes)
  | [] => .ok (none, [])
  | b :: s =>
    if b = 0x65 ∨ b = 0x45 then
      match readDigits atEnd (readSign s).2 with
      | .error fault => .error fault
      | .ok (digits, rest) => .ok (some (signed (readSign s).1 (exponentValue digits)), rest)
    else .ok (none, b :: s)

def readNumeral (atEnd : Fault) (negative : Bool) (s : Bytes) :
    Except Fault (Numeral × Bytes) :=
  match readInteger atEnd s with
  | .error fault => .error fault
  | .ok (integer, s) =>
    match readFraction atEnd s with
    | .error fault => .error fault
    | .ok (fraction, s) =>
      match readExponent atEnd s with
      | .error fault => .error fault
      | .ok (exponent, s) => .ok (⟨negative, integer, fraction, exponent⟩, s)

/-! ## Value -/

/-- Appends digits to a number as long as it fits into 64 bits; the digits left over. -/
def appendDigits (n : Nat) : List Nat → Nat × List Nat
  | [] => (n, [])
  | d :: digits =>
    if 10 * n + d < UInt64.size then appendDigits (10 * n + d) digits else (n, d :: digits)

/-- The largest power of ten that a floating-point number can hold, by its exponent. -/
def largestPower : Nat := 308

def powerOfTen (n : Nat) : Float := .ofScientific 1 false n

/-- Divides by a power of ten, in several steps where it is too large for one.  A zero stays. -/
def scaleDown (x : Float) (n : Nat) : Float :=
  if n ≤ largestPower then x / powerOfTen n
  else if x == 0 then x
  else scaleDown (x / powerOfTen largestPower) (n - largestPower)
termination_by n
decreasing_by simp only [largestPower] at *; omega

/-- The value of `significand · 10^exponent`, rounded once for the significand and once for the
    scaling. -/
def scaled (significand : Nat) (exponent : Int) : Except Fault Float :=
  let x := significand.toUInt64.toFloat
  if exponent < 0 then .ok (scaleDown x exponent.natAbs)
  else if exponent.natAbs ≤ largestPower then
    let y := x * powerOfTen exponent.natAbs
    if y.isInf then .error .numberOutOfRange else .ok y
  else if x == 0 then .ok x
  else .error .numberOutOfRange

namespace Numeral

/-- The floating-point value.  Digits that do not fit into 64 bits count only by their place. -/
def toFloat (n : Numeral) : Except Fault Float :=
  let (whole, dropped) := appendDigits 0 n.integer
  let fraction := n.fraction.getD []
  let (significand, ignored) := appendDigits whole fraction
  let places := fraction.length - ignored.length
  -- a dropped digit of the whole part counts as a place, one of the fraction not at all
  let exponent := (dropped.length : Int) - places + n.exponent.getD 0
  (scaled significand exponent).map fun x => if n.negative then -x else x

/-- The whole number of 64 bits that is written without fraction or exponent.  A negative zero is
    no whole number. -/
def integer? (n : Numeral) : Option Int :=
  if n.fraction.isSome || n.exponent.isSome then none
  else
    match appendDigits 0 n.integer with
    | (_, _ :: _) => none
    | (value, []) =>
      -- below zero only the signed range counts
      if n.negative then
        if 0 < value ∧ value ≤ UInt64.size / 2 then some (-(value : Int)) else none
      else some value

def found (n : Numeral) : Except Fault Found :=
  match n.integer? with
  | some value => .ok (.integer value)
  | none => n.toFloat.map .floating

end Numeral

def readNumber (negative : Bool) (s : Bytes) : Except Fault Found :=
  match readNumeral .endInValue negative s with
  | .error fault => .error fault
  | .ok (numeral, _) => numeral.found

def skipNumber (s : Bytes) : Except Fault Bytes :=
  (readNumeral .invalidNumber false s).map Prod.snd

/-! ## Length -/

theorem length_takeDigits_le (s : Bytes) : (takeDigits s).2.length ≤ s.length :=
  (List.dropWhile_sublist _).length_le

theorem length_takeDigits_lt {b : UInt8} (s : Bytes) (h : isDigit b) :
    (takeDigits (b :: s)).2.length < (b :: s).length := by
  simp only [takeDigits, List.dropWhile_cons, h, if_true]
  exact Nat.lt_succ_of_le (length_takeDigits_le s)

theorem length_readSign_le (s : Bytes) : (readSign s).2.length ≤ s.length := by
  unfold readSign
  split <;> simp

theorem length_lt_of_readDigits {atEnd : Fault} {digits : List Nat} {s rest : Bytes}
    (h : readDigits atEnd s = .ok (digits, rest)) : rest.length < s.length := by
  unfold readDigits at h
  split at h
  · cases h
  · split at h
    · rename_i tail isDigit
      have := length_takeDigits_lt tail isDigit
      rwa [Except.ok.inj h] at this
    · cases h

theorem length_lt_of_readInteger {atEnd : Fault} {digits : List Nat} {s rest : Bytes}
    (h : readInteger atEnd s = .ok (digits, rest)) : rest.length < s.length := by
  unfold readInteger at h
  split at h
  · cases h
  · split at h
    · split at h
      · cases h
      · cases h; simp
    · split at h
      · rename_i tail _ isDigit
        have := length_takeDigits_lt tail isDigit
        rwa [Except.ok.inj h] at this
      · cases h

theorem length_le_of_readFraction {atEnd : Fault} {digits : Option (List Nat)} {s rest : Bytes}
    (h : readFraction atEnd s = .ok (digits, rest)) : rest.length ≤ s.length := by
  unfold readFraction at h
  split at h
  · split at h
    · cases h
    · cases h
      exact Nat.le_succ_of_le (Nat.le_of_lt (length_lt_of_readDigits ‹_›))
  · cases h; exact Nat.le_refl _

theorem length_le_of_readExponent {atEnd : Fault} {exponent : Option Int} {s rest : Bytes}
    (h : readExponent atEnd s = .ok (exponent, rest)) : rest.length ≤ s.length := by
  unfold readExponent at h
  split at h
  · cases h; exact Nat.le_refl _
  · split at h
    · split at h
      · cases h
      · cases h
        have := length_lt_of_readDigits ‹_›
        exact Nat.le_succ_of_le (Nat.le_trans (Nat.le_of_lt this) (length_readSign_le _))
    · cases h; exact Nat.le_refl _

theorem length_lt_of_readNumeral {atEnd : Fault} {negative : Bool} {n : Numeral} {s rest : Bytes}
    (h : readNumeral atEnd negative s = .ok (n, rest)) : rest.length < s.length := by
  rw [readNumeral] at h
  split at h
  · cases h
  · have := length_lt_of_readInteger ‹_›
    split at h
    · cases h
    · have := length_le_of_readFraction ‹_›
      split at h
      · cases h
      · have := length_le_of_readExponent ‹_›
        cases h
        omega

theorem length_lt_of_skipNumber {s rest : Bytes} (h : skipNumber s = .ok rest) :
    rest.length < s.length := by
  obtain ⟨_, found⟩ := exists_of_map_snd h
  exact length_lt_of_readNumeral found

end ReplicatedKv.Json
