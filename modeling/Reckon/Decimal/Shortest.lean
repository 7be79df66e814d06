/-
The shortest decimal that reads back as a given double. A decimal reads back
when it lies in the interval of reals that round to the double. For one digit,
two digits and so on, the two neighbours of the double on the grid of that many
digits are tested; the first grid with a hit gives the answer, the nearer of two
hits, and at an exact tie the even one.
-/
namespace Reckon

/-- The number `coefficient · 10 ^ exponent`. -/
structure Decimal where
  coefficient : Nat
  exponent : Int
  deriving Repr, DecidableEq

namespace Decimal

/-- `n · 2 ^ q` and `c · 10 ^ p` over a common unit: `c` and `n` are multiplied by these factors to
be compared. -/
def factors (p q : Int) : Nat × Nat :=
  (Nat.pow 10 p.toNat * Nat.pow 2 (-q).toNat, Nat.pow 2 q.toNat * Nat.pow 10 (-p).toNat)

/-- The reals that round to `m · 2 ^ q`, in quarters of the unit: half a unit to each side, a
quarter below a power of two, where the doubles lie closer. The ends belong to it when `m` is
even. -/
structure Interval where
  low : Nat
  middle : Nat
  high : Nat
  closed : Bool

/-- The rounding interval of the double `m · 2 ^ q`. -/
def interval (m : Nat) (q : Int) : Interval where
  low := if m = Nat.pow 2 52 && q > -1074 then 4 * m - 1 else 4 * m - 2
  middle := 4 * m
  high := 4 * m + 2
  closed := m % 2 == 0

/-- The exponent of the first digit of `m · 2 ^ q`, for `m` not zero: an estimate from the binary
logarithm, put right by comparison. -/
def decade (m : Nat) (q : Int) : Int :=
  let estimate := ((m.log2 + q) * 30103) / 100000
  let reaches (e : Int) : Bool :=
    let (a, b) := factors e q
    a ≤ m * b
  if reaches (estimate + 1) then estimate + 1
  else if reaches estimate then estimate
  else estimate - 1

/-- The neighbour of the double on the grid of multiples of `10 ^ p` that reads back, the nearer if
both do. -/
def onGrid? (i : Interval) (q p : Int) : Option Decimal :=
  let (a, b) := factors p (q - 2)
  let inside (c : Nat) : Bool :=
    if i.closed then i.low * b ≤ c * a && c * a ≤ i.high * b
    else i.low * b < c * a && c * a < i.high * b
  let below := i.middle * b / a
  let downwards := i.middle * b - below * a
  let upwards := (below + 1) * a - i.middle * b
  let nearerIsBelow := downwards < upwards || (downwards == upwards && below % 2 == 0)
  if inside below && (nearerIsBelow || !inside (below + 1)) then some ⟨below, p⟩
  else if inside (below + 1) then some ⟨below + 1, p⟩
  else none

/-- The first hit on the grids of `n`, `n + 1`, … digits, for as many grids as `fuel` says. -/
def firstHit (i : Interval) (q decade : Int) : Nat → Nat → Option Decimal
  | 0, _ => none
  | fuel + 1, n =>
    match onGrid? i q (decade - n + 1) with
    | some d => some d
    | none => firstHit i q decade fuel (n + 1)

/-- A decimal without zeros at its end, for as many zeros as `fuel` says. -/
def trimZeros : Nat → Decimal → Decimal
  | 0, d => d
  | fuel + 1, d =>
    if d.coefficient ≠ 0 && d.coefficient % 10 = 0 then
      trimZeros fuel ⟨d.coefficient / 10, d.exponent + 1⟩
    else d

/-- The shortest decimal that reads back as `m · 2 ^ q`, for `m` not zero. Seventeen digits always
suffice. -/
def shortest (m : Nat) (q : Int) : Decimal :=
  match firstHit (interval m q) q (decade m q) 17 1 with
  | some d => trimZeros 17 d
  | none => ⟨m, q⟩

end Decimal

end Reckon
