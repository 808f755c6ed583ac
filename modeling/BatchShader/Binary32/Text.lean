import BatchShader.Binary32
import BatchShader.Decimal.Shortest

/-
  How a number is written: the fewest digits that are read back as the same number.
-/

namespace BatchShader.Binary32

/-- The integers `m` and `q` for which a finite number has the magnitude `m * 2 ^ q`. -/
def significand (x : Binary32) : Nat × Int :=
  if x.exponentField = 0 then (x.fractionField, -149)
  else (x.fractionField + 0x800000, (x.exponentField : Int) - 150)

/-- The reals that round to the magnitude of a finite number other than zero. The lower neighbour
of a power of two is nearer by half; the ends round to the number when its significand is even. -/
def roundingInterval (x : Binary32) : Decimal.Interval :=
  let (m, q) := x.significand
  let lowGap := if x.fractionField = 0 ∧ 1 < x.exponentField then 1 else 2
  let up := (q - 2).toNat
  let down := (2 - q).toNat
  { low := (4 * m - lowGap) <<< up
    value := (4 * m) <<< up
    high := (4 * m + 2) <<< up
    denom := 1 <<< down
    closed := m % 2 == 0 }

/-- Numbers of magnitude `10⁻⁴` to below `10¹⁶` are written without an exponent. -/
def textLayout : Decimal.Layout := ⟨-4, 16⟩

/-- The text of a number: `1.0`, `-0.0`, `1e-5`, `1.5e16`, `inf`, `NaN`. -/
def text (x : Binary32) : String :=
  if x.isNaN then "NaN"
  else
    let sign := if x.signBit then "-" else ""
    let magnitude :=
      if x.isInfinite then "inf"
      else if x.significand.1 = 0 then "0.0"
      else (x.roundingInterval.shortest 9).trim.write textLayout
    sign ++ magnitude

end BatchShader.Binary32
