/-!
# Doubles as decimal text

`shortest` finds the decimal with the fewest digits that reads back as a given double, in exact
integer arithmetic; of two such decimals the nearer one, and of two equally near ones the one with
the even last digit. `text` writes it: positionally while the decimal exponent lies between -5 and
15, in scientific notation outside.
-/

namespace LanguageClient.Double

/-- The sign bit, and the magnitude as `mantissa * 2 ^ (exponent - 1075)`. -/
structure Parts where
  negative : Bool
  mantissa : Nat
  exponent : Nat
  /-- The gap below the magnitude is half the gap above it. -/
  narrowBelow : Bool

/-- Takes the bits of a finite double apart. -/
def parts (bits : UInt64) : Parts :=
  let n := bits.toNat
  let fraction := n % 0x10000000000000
  let biased := n / 0x10000000000000 % 0x800
  { negative := n / 0x8000000000000000 == 1
    mantissa := if biased == 0 then fraction else 0x10000000000000 + fraction
    exponent := if biased == 0 then 1 else biased
    narrowBelow := fraction == 0 && biased > 1 }

/-- Is `d * 10 ^ k` (scaled) inside the interval of decimals that read back? Its ends belong to it
when the mantissa is even. -/
def inside (low high point : Nat) (closed : Bool) : Bool :=
  if closed then low ≤ point && point ≤ high else low < point && point < high

/-- Tries the grids of step `10 ^ k`, coarsest first: the value's neighbours on the grid are the
only candidates. The quotient `num / den` is the value, `low / den` and `high / den` bound what
reads back. -/
def search (num den low high : Nat) (closed : Bool) : Nat → Int → Nat × Int
  | 0, k => (0, k)
  | fuel + 1, k =>
      -- everything over one denominator, so that the grid points are the multiples of `step`
      let up := if k < 0 then Nat.pow 10 (-k).toNat else 1
      let step := if k < 0 then den else den * Nat.pow 10 k.toNat
      let value := num * up
      let below := value / step
      let hit (d : Nat) : Bool := inside (low * up) (high * up) (d * step) closed
      let above := below + 1
      match hit below, hit above with
      | true, false => (below, k)
      | false, true => (above, k)
      | true, true =>
          let down := value - below * step
          let rise := above * step - value
          if down < rise then (below, k)
          else if rise < down then (above, k)
          else if below % 2 == 0 then (below, k) else (above, k)
      | false, false => search num den low high closed fuel (k - 1)

/-- The shortest decimal `d * 10 ^ k` of a positive magnitude. -/
def shortest (p : Parts) : Nat × Int :=
  let quarter := p.mantissa * 4
  let low := if p.narrowBelow then quarter - 1 else quarter - 2
  let high := quarter + 2
  let scaleUp := Nat.pow 2 (p.exponent - 1077)
  let den := Nat.pow 2 (1077 - p.exponent)
  let num := quarter * scaleUp
  let start : Int := (Nat.repr num).length - (Nat.repr den).length + 1
  search num den (low * scaleUp) (high * scaleUp) (p.mantissa % 2 == 0) 24 start

/-- Writes `d * 10 ^ k`, with a point or an exponent always present. -/
def decimalText (d : Nat) (k : Int) : String :=
  let digits := (Nat.repr d).toList
  let exponent : Int := digits.length - 1 + k
  if -5 ≤ exponent ∧ exponent ≤ 15 then
    if 0 ≤ k then String.ofList (digits ++ List.replicate k.toNat '0') ++ ".0"
    else if 0 ≤ exponent then
      let whole := exponent.toNat + 1
      String.ofList (digits.take whole ++ '.' :: digits.drop whole)
    else
      "0." ++ String.ofList (List.replicate (-exponent - 1).toNat '0' ++ digits)
  else
    let tail := digits.drop 1
    let point := if tail.isEmpty then [] else '.' :: tail
    let sign := if exponent < 0 then "-" else "+"
    String.ofList (digits.take 1 ++ point) ++ "e" ++ sign ++ Nat.repr exponent.natAbs

/-- The text of a finite double. -/
def text (bits : UInt64) : String :=
  let p := parts bits
  let magnitude :=
    if p.mantissa == 0 then "0.0"
    else
      let (d, k) := shortest p
      decimalText d k
  if p.negative then "-" ++ magnitude else magnitude

/-- Powers of ten up to `10 ^ 308`, each the nearest double. -/
def powerOfTen (n : Nat) : Float := Float.ofScientific 1 false n

/-- A significand times a power of ten, computed in doubles: the significand is rounded once and
then multiplied or divided by the power; below `10 ^ -308` it is first divided by `10 ^ 308` as
often as needed. Nothing when the result is too large. -/
def scale (f : Float) : Nat → Int → Option Float
  | 0, _ => some f
  | fuel + 1, exponent =>
      if exponent.natAbs ≤ 308 then
        if 0 ≤ exponent then
          let r := f * powerOfTen exponent.natAbs
          if r.isInf then none else some r
        else some (f / powerOfTen exponent.natAbs)
      else if f == 0.0 then some f
      else if 0 ≤ exponent then none
      else scale (f / powerOfTen 308) fuel (exponent + 308)

/-- The bits of `significand * 10 ^ exponent` with a sign. A value stays nonzero for at most three
divisions by `10 ^ 308`. -/
def ofDecimal? (negative : Bool) (significand : Nat) (exponent : Int) : Option UInt64 :=
  (scale significand.toUInt64.toFloat 4 exponent).map fun f =>
    (if negative then -f else f).toBits

end LanguageClient.Double
