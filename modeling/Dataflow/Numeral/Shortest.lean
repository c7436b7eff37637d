import Dataflow.Numeral.Binary64

/-!
# The shortest decimal of a binary number

Of the decimals that round to a number, one with the fewest digits; of these the nearest, and of
two equally near ones the even one. On the grid of a power of ten only the two neighbours of the
number can be nearest, so the grids are tried from coarse to fine.
-/

namespace Dataflow.Numeral.Binary64

/-- The numbers between `low / unit` and `high / unit`, with the ends if `closed`; all of them
round to `centre / unit`. -/
structure Interval where
  low : Nat
  centre : Nat
  high : Nat
  unit : Nat
  closed : Bool

/-- What rounds to `m * 2 ^ q`. Below a power of two the numbers are twice as dense. -/
def interval (m : Nat) (q : Int) : Interval :=
  let below := if 2 * m = mantissaBound ∧ minExponent < q then 1 else 2
  let up := Nat.pow 2 q.toNat
  ⟨(4 * m - below) * up, 4 * m * up, (4 * m + 2) * up, 4 * Nat.pow 2 (-q).toNat, m % 2 = 0⟩

/-- The number `c * 10 ^ k` as a numerator that can be compared with those of the interval once they
are multiplied by `stretch k`. -/
def grid (i : Interval) (c : Nat) (k : Int) : Nat := c * Nat.pow 10 k.toNat * i.unit

def stretch (k : Int) : Nat := Nat.pow 10 (-k).toNat

/-- Whether `c * 10 ^ k` is in the interval. -/
def Interval.contains (i : Interval) (c : Nat) (k : Int) : Bool :=
  let x := grid i c k
  let low := i.low * stretch k
  let high := i.high * stretch k
  if i.closed then low ≤ x && x ≤ high else low < x && x < high

/-- The distance of `c * 10 ^ k` from the centre. -/
def Interval.distance (i : Interval) (c : Nat) (k : Int) : Nat :=
  let x := grid i c k
  let y := i.centre * stretch k
  (x - y) + (y - x)

/-- The nearer of the two neighbours on the grid of `10 ^ k` that lie in the interval. -/
def neighbour? (i : Interval) (k : Int) : Option Nat :=
  let c := i.centre * stretch k / (i.unit * Nat.pow 10 k.toNat)
  match i.contains c k, i.contains (c + 1) k with
  | true, true =>
      let d := i.distance c k
      let d' := i.distance (c + 1) k
      if d < d' then some c else if d' < d then some (c + 1)
      else if c % 2 = 0 then some c else some (c + 1)
  | true, false => some c
  | false, true => some (c + 1)
  | false, false => none

/-- The place of the leading digit: `10 ^ (magnitude - 1) ≤ centre < 10 ^ magnitude`. -/
def magnitude (i : Interval) : Int :=
  ((Nat.toDigits 10 (i.centre * Nat.pow 10 400 / i.unit)).length : Int) - 400

/-- The first grid with a neighbour in the interval, from `n` digits on. -/
def firstGrid (i : Interval) (n : Nat) : (more : Nat) → Nat × Int
  | 0 => (i.centre / i.unit, 0)
  | more + 1 =>
      let k := magnitude i - n
      match neighbour? i k with
      | some c => (c, k)
      | none => firstGrid i (n + 1) more

/-- Digits and exponent of the shortest decimal of `m * 2 ^ q`. Seventeen digits always suffice. -/
def shortest (m : Nat) (q : Int) : Nat × Int := firstGrid (interval m q) 1 17

/-! ## Writing -/

/-- How decimals are written: in positions if the leading digit has an exponent from `least` on and
below `bound`, else with an exponent of at least `exponentDigits` digits. -/
structure Style where
  least : Int
  bound : Int
  exponentDigits : Nat

def dropZeros (ds : List Char) : List Char := (ds.reverse.dropWhile (· = '0')).reverse

/-- Digits with a point after the first `n`, and a zero where a side is empty. -/
def pointed (ds : List Char) (n : Nat) : List Char :=
  let whole := ds.take n ++ List.replicate (n - ds.length) '0'
  let part := ds.drop n
  whole ++ '.' :: (if part = [] then ['0'] else part)

/-- An exponent with its sign. -/
def exponentText (width : Nat) (e : Int) : List Char :=
  let ds := Nat.toDigits 10 e.natAbs
  (if e < 0 then '-' else '+') :: (List.replicate (width - ds.length) '0' ++ ds)

/-- The number `c * 10 ^ k` in a style, for a positive `c`. -/
def write (style : Style) (c : Nat) (k : Int) : List Char :=
  let all := Nat.toDigits 10 c
  let e := k + all.length - 1
  let ds := dropZeros all
  if style.least ≤ e ∧ e < style.bound then
    if 0 ≤ e then pointed ds (e.toNat + 1)
    else '0' :: '.' :: (List.replicate ((-e).toNat - 1) '0' ++ ds)
  else
    let mantissa := match ds with
      | d :: d' :: r => d :: '.' :: d' :: r
      | ds => ds
    mantissa ++ 'e' :: exponentText style.exponentDigits e

/-- A number in a style. -/
def text (style : Style) : Binary64 → String
  | nan => "nan"
  | infinity negative => if negative then "-inf" else "inf"
  | finite negative m q =>
      let body := if m = 0 then ['0', '.', '0'] else
        let (c, k) := shortest m q
        write style c k
      String.ofList (if negative then '-' :: body else body)

end Dataflow.Numeral.Binary64
