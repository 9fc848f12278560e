import LinkageCheck.Decimal.Binary64

/-! The shortest decimal text that reads back as the same number. The candidates with `n` digits
are the two neighbours of the value on the grid of `n` digits; the first grid with a neighbour
that rounds to the number is taken, of two such neighbours the nearer, and of two equally near
ones the larger. -/

namespace LinkageCheck.Decimal

structure ShortDecimal where
  digits : Nat
  exponent : Int
  deriving DecidableEq, Repr

/-- The interval of reals that round to a positive number, and the number itself, in units of
`2 ^ -1076`; `closed` says whether the ends belong to it. -/
structure RoundingInterval where
  low : Nat
  value : Nat
  high : Nat
  closed : Bool
  deriving DecidableEq, Repr

namespace RoundingInterval

def ofParts (significand exponent : Nat) : RoundingInterval where
  low := 4 * significand * Nat.pow 2 exponent -
    (if significand = Nat.pow 2 52 ∧ 0 < exponent then Nat.pow 2 exponent
      else 2 * Nat.pow 2 exponent)
  value := 4 * significand * Nat.pow 2 exponent
  high := 4 * significand * Nat.pow 2 exponent + 2 * Nat.pow 2 exponent
  closed := significand % 2 = 0

def scale (i : RoundingInterval) (k : Nat) : RoundingInterval :=
  { i with low := i.low * k, value := i.value * k, high := i.high * k }

def contains (i : RoundingInterval) (x : Nat) : Bool :=
  if i.closed then i.low ≤ x && x ≤ i.high else i.low < x && x < i.high

def magnitude (i : RoundingInterval) : Int :=
  (Nat.toDigits 10 (i.value * Nat.pow 10 340 / Nat.pow 2 1076)).length - 340

/-- The better neighbour of the value among the multiples of `10 ^ exponent`, if one is inside. -/
def neighbour? (i : RoundingInterval) (exponent : Int) : Option ShortDecimal :=
  let unit := Nat.pow 10 exponent.toNat * Nat.pow 2 1076
  let i := i.scale (Nat.pow 10 (-exponent).toNat)
  let below := i.value / unit
  let toBelow := i.value - below * unit
  let toAbove := (below + 1) * unit - i.value
  match i.contains (below * unit), i.contains ((below + 1) * unit) with
  | true, true => some ⟨if toBelow < toAbove then below else below + 1, exponent⟩
  | true, false => some ⟨below, exponent⟩
  | false, true => some ⟨below + 1, exponent⟩
  | false, false => none

def shortest (i : RoundingInterval) : ShortDecimal :=
  ((List.range 17).findSome? fun n : Nat => i.neighbour? (i.magnitude - (n + 1 : Nat))).getD ⟨0, 0⟩

end RoundingInterval

def zeros (n : Nat) : List Char := List.replicate n '0'

/-- Positional text, with at least one digit on each side of the point, from `10 ^ -4` up to `10
^ 16`; scientific text beyond. -/
def ShortDecimal.text (x : ShortDecimal) : List Char :=
  let all := Nat.toDigits 10 x.digits
  let ds := (all.reverse.dropWhile (· == '0')).reverse
  let point := x.exponent + all.length
  if -3 ≤ point ∧ point ≤ 16 then
    if point ≤ 0 then ['0', '.'] ++ zeros (-point).toNat ++ ds
    else if ds.length ≤ point.toNat then ds ++ zeros (point.toNat - ds.length) ++ ['.', '0']
    else ds.take point.toNat ++ '.' :: ds.drop point.toNat
  else
    let fraction := if ds.length ≤ 1 then [] else '.' :: ds.drop 1
    ds.take 1 ++ fraction ++ 'e' :: (toString (point - 1)).toList

def Binary64.text : Binary64 → String
  | .nan => "NaN"
  | .infinite negative => if negative then "-inf" else "inf"
  | .finite negative significand exponent _ =>
    let body :=
      if significand = 0 then ['0', '.', '0']
      else (RoundingInterval.ofParts significand exponent).shortest.text
    String.ofList (if negative then '-' :: body else body)

end LinkageCheck.Decimal
