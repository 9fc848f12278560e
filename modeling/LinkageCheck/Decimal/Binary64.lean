/-! Numbers of the binary64 format as exact values, rounding of quotients to them, and their
equality. -/

namespace LinkageCheck.Decimal

/-- `finite` stands for `significand * 2 ^ (exponent - 1074)` with its sign. The significand has
53 bits, and fewer only at the lowest exponent, so each number has one form. -/
inductive Binary64 where
  | nan
  | infinite (negative : Bool)
  | finite (negative : Bool) (significand exponent : Nat)
      (canonical : significand < Nat.pow 2 53 ∧ (Nat.pow 2 52 ≤ significand ∨ exponent = 0)
        ∧ exponent ≤ 2045)
  deriving DecidableEq

def roundQuotient (n d : Nat) : Nat :=
  let q := n / d
  let r := n % d
  if d < 2 * r ∨ (2 * r = d ∧ q % 2 = 1) then q + 1 else q

namespace Binary64

def ofParts (negative : Bool) (significand exponent : Nat) : Binary64 :=
  if h : significand < Nat.pow 2 53 ∧ (Nat.pow 2 52 ≤ significand ∨ exponent = 0)
      ∧ exponent ≤ 2045 then
    .finite negative significand exponent h
  else .infinite negative

/-- The number nearest to `± n / d`, a tie to the even significand. -/
def ofQuotient (negative : Bool) (n d : Nat) : Binary64 :=
  let exponent := (n * Nat.pow 2 1074 / d).log2 - 52
  let significand := roundQuotient (n * Nat.pow 2 1074) (d * Nat.pow 2 exponent)
  if significand = Nat.pow 2 53 then ofParts negative (Nat.pow 2 52) (exponent + 1)
  else ofParts negative significand exponent

def ofInt (i : Int) : Binary64 := ofQuotient (decide (i < 0)) i.natAbs 1

def zero : Binary64 := .finite false 0 0 (by decide)

/-- Equality of numbers: the two zeros are equal and NaN equals nothing. -/
def equals : Binary64 → Binary64 → Bool
  | .infinite s, .infinite t => s == t
  | .finite s m e _, .finite t n f _ => m == n && e == f && (s == t || m == 0)
  | _, _ => false

end Binary64

end LinkageCheck.Decimal
