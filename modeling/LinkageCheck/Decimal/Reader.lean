import LinkageCheck.Decimal.Binary64

/-! Reading decimal text: whole numbers, and scientific text rounded to the nearest binary64
number. -/

namespace LinkageCheck.Decimal

def digitsValue (ds : List Char) : Nat :=
  ds.foldl (fun n c => n * 10 + (c.toNat - '0'.toNat)) 0

def splitSign : List Char → Bool × List Char
  | '-' :: cs => (true, cs)
  | '+' :: cs => (false, cs)
  | cs => (false, cs)

def signed (negative : Bool) (n : Nat) : Int :=
  if negative then -(n : Int) else n

def readInt? (cs : List Char) : Option Int :=
  let (negative, ds) := splitSign cs
  if !ds.isEmpty && ds.all Char.isDigit then some (signed negative (digitsValue ds)) else none

def fitsBits (bits : Nat) (i : Int) : Bool :=
  -(Nat.pow 2 (bits - 1) : Int) ≤ i && i < (Nat.pow 2 (bits - 1) : Int)

def readInt64? (cs : List Char) : Option Int :=
  (readInt? cs).filter (fitsBits 64)

structure Scientific where
  negative : Bool
  digits : Nat
  exponent : Int
  deriving DecidableEq, Repr

def Scientific.read? (cs : List Char) : Option Scientific := do
  let (negative, cs) := splitSign cs
  let whole := cs.takeWhile Char.isDigit
  let cs := cs.dropWhile Char.isDigit
  let (fraction, cs) := match cs with
    | '.' :: cs => (cs.takeWhile Char.isDigit, cs.dropWhile Char.isDigit)
    | cs => ([], cs)
  guard (!(whole ++ fraction).isEmpty)
  let exponent ← match cs with
    | [] => some 0
    | c :: cs => if c = 'e' ∨ c = 'E' then readInt? cs else none
  return ⟨negative, digitsValue (whole ++ fraction), exponent - fraction.length⟩

/-- The nearest binary64 number. Values beyond `10 ^ 310` are infinite and those below `10 ^
-330` are zero whatever their digits, so no power of ten grows with the exponent. -/
def Scientific.round (x : Scientific) : Binary64 :=
  let magnitude := x.exponent + (Nat.toDigits 10 x.digits).length
  if x.digits = 0 ∨ magnitude < -330 then .ofParts x.negative 0 0
  else if 310 < magnitude then .infinite x.negative
  else
    .ofQuotient x.negative (x.digits * Nat.pow 10 x.exponent.toNat)
      (Nat.pow 10 (-x.exponent).toNat)

def readBinary64? (cs : List Char) : Option Binary64 :=
  (Scientific.read? cs).map Scientific.round

def readNamedBinary64? (cs : List Char) : Option Binary64 :=
  let (negative, name) := splitSign cs
  let name := String.ofList (name.map Char.toLower)
  if name = "inf" ∨ name = "infinity" then some (.infinite negative)
  else if name = "nan" then some .nan
  else readBinary64? cs

end LinkageCheck.Decimal
