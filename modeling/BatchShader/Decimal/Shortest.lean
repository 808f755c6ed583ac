/-
  The shortest decimal inside an interval around a positive rational.

  `Interval` gives a value and the two ends of the set of reals that are read back as it, all over
  one denominator. `shortest` tries one digit, two digits, …: on the grid of the decimals with
  that many digits it looks at the two neighbours of the value, takes the one inside the interval,
  and of two the nearer; an exact tie goes upwards. If any decimal with that many digits lies
  inside, then so does a neighbour of the value, so the digit count is least.
-/

namespace BatchShader

/-- The decimal `digits * 10 ^ exponent`. -/
structure Decimal where
  digits : Nat
  exponent : Int
deriving DecidableEq, Repr

namespace Decimal

/-- A power of ten. -/
def powerOfTen (n : Nat) : Nat := Nat.pow 10 n

/-- How many decimal digits a number has; `0` has none. -/
def digitCount (n : Nat) : Nat := if n = 0 then 0 else (Nat.toDigits 10 n).length

/-- The position of the leading digit: `1` is at `0`, `10` at `1`, `0.1` at `-1`. -/
def magnitude (d : Decimal) : Int := d.exponent + (digitCount d.digits : Int) - 1

/-- Reals from `low / denom` to `high / denom` around `value / denom`. -/
structure Interval where
  low : Nat
  value : Nat
  high : Nat
  denom : Nat
  /-- Whether the two ends belong to the interval. -/
  closed : Bool

namespace Interval

/-- The position of the value's leading digit. -/
def magnitude (i : Interval) : Int :=
  if i.denom ≤ i.value then (digitCount (i.value / i.denom) : Int) - 1
  else -(digitCount ((i.denom - 1) / i.value) : Int)

/-- Numerator and denominator of `n / denom` in units of `10 ^ e`. -/
def scaled (i : Interval) (e : Int) (n : Nat) : Nat × Nat :=
  if 0 ≤ e then (n, i.denom * powerOfTen e.toNat)
  else (n * powerOfTen (-e).toNat, i.denom)

/-- Whether `c * 10 ^ e` lies in the interval. -/
def holds (i : Interval) (e : Int) (c : Nat) : Bool :=
  let (low, unit) := i.scaled e i.low
  let (high, _) := i.scaled e i.high
  if i.closed then low ≤ c * unit && c * unit ≤ high else low < c * unit && c * unit < high

/-- The multiple of `10 ^ e` in the interval that is nearest to the value, if a neighbour of the
value is inside. -/
def nearest? (i : Interval) (e : Int) : Option Nat :=
  let (value, unit) := i.scaled e i.value
  let below := value / unit
  match i.holds e below, i.holds e (below + 1) with
  | true, true => some (if 2 * (value % unit) < unit then below else below + 1)
  | true, false => some below
  | false, true => some (below + 1)
  | false, false => none

/-- The shortest decimal inside with at most `limit` digits, else the value cut to `limit`. -/
def shortest (i : Interval) (limit : Nat) : Decimal :=
  let place (count : Nat) : Int := i.magnitude - count + 1
  let hit := (List.range limit).findSome? fun k =>
    (i.nearest? (place (k + 1))).map fun c => (⟨c, place (k + 1)⟩ : Decimal)
  hit.getD ⟨(i.scaled (place limit) i.value).1 / (i.scaled (place limit) i.value).2, place limit⟩

end Interval

/-- Without trailing zeros in the digits. -/
def trim (d : Decimal) : Decimal := go (digitCount d.digits) d
where
  go : Nat → Decimal → Decimal
    | 0, d => d
    | n + 1, d => if d.digits % 10 = 0 then go n ⟨d.digits / 10, d.exponent + 1⟩ else d

/-! ## Writing -/

/-- Which magnitudes are written without an exponent: those from `least` to below `bound`. -/
structure Layout where
  least : Int
  bound : Int

/-- The digits of `n`, padded on the left with zeros. -/
def padded (n width : Nat) : String :=
  let text := String.ofList (Nat.toDigits 10 n)
  "".pushn '0' (width - text.length) ++ text

/-- Digits and a point, with at least one digit on each side of it. -/
def positional (d : Decimal) : String :=
  if 0 ≤ d.exponent then toString (d.digits * powerOfTen d.exponent.toNat) ++ ".0"
  else
    let places := (-d.exponent).toNat
    toString (d.digits / powerOfTen places) ++ "." ++ padded (d.digits % powerOfTen places) places

/-- One digit, a point only before further digits, and the magnitude after `e`. -/
def exponential (d : Decimal) : String :=
  let text := (Nat.toDigits 10 d.digits)
  let lead := String.ofList (text.take 1)
  let rest := String.ofList (text.drop 1)
  lead ++ (if rest.isEmpty then "" else "." ++ rest) ++ "e" ++ toString d.magnitude

def write (l : Layout) (d : Decimal) : String :=
  if l.least ≤ d.magnitude ∧ d.magnitude < l.bound then d.positional else d.exponential

end Decimal

end BatchShader
