import LinkageCheck.Decimal.Reader
import Mathlib.Algebra.Ring.Int.Defs

/-! Integers written in decimal are read back. -/

namespace LinkageCheck.Decimal

variable {n : Nat}

theorem digitsValue_toDigits (n : Nat) : digitsValue (Nat.toDigits 10 n) = n := by
  have hvalue : Nat.ofDigitChars 10 (Nat.toDigits 10 n) 0 = n := Nat.ofDigitChars_ten_toDigits
  simpa only [Nat.ofDigitChars_eq_foldl, digitsValue, Nat.mul_comm] using hvalue

theorem toDigits_injective {m n : Nat} (h : Nat.toDigits 10 m = Nat.toDigits 10 n) : m = n := by
  rw [← digitsValue_toDigits m, h, digitsValue_toDigits]

theorem isDigit_of_mem_toDigits {c : Char} (h : c ∈ Nat.toDigits 10 n) : c.isDigit = true :=
  Nat.isDigit_of_mem_toDigits (by decide) (by decide) h

theorem not_mem_toDigits {c : Char} (h : c.isDigit = false) : c ∉ Nat.toDigits 10 n := by
  intro hc
  rw [isDigit_of_mem_toDigits hc] at h
  cases h

theorem exists_toDigits_eq_cons (n : Nat) :
    ∃ c cs, Nat.toDigits 10 n = c :: cs ∧ c.isDigit = true := by
  obtain ⟨c, cs, hcons⟩ := List.exists_cons_of_ne_nil (Nat.toDigits_ne_nil (n := n) (b := 10))
  exact ⟨c, cs, hcons, isDigit_of_mem_toDigits (hcons ▸ List.mem_cons_self)⟩

theorem splitSign_toDigits (n : Nat) :
    splitSign (Nat.toDigits 10 n) = (false, Nat.toDigits 10 n) := by
  obtain ⟨c, cs, hcons, hc⟩ := exists_toDigits_eq_cons n
  rw [hcons]
  unfold splitSign
  split
  · next heq =>
    cases heq
    exact absurd hc (by decide)
  · next heq =>
    cases heq
    exact absurd hc (by decide)
  · rfl

theorem readInt?_of_splitSign {cs : List Char} {negative : Bool}
    (h : splitSign cs = (negative, Nat.toDigits 10 n)) :
    readInt? cs = some (signed negative n) := by
  have hdigits : (Nat.toDigits 10 n).all Char.isDigit = true :=
    List.all_eq_true.mpr fun c => isDigit_of_mem_toDigits
  have hne : (Nat.toDigits 10 n).isEmpty = false :=
    List.isEmpty_eq_false_iff.mpr Nat.toDigits_ne_nil
  simp only [readInt?, h, hne, hdigits, digitsValue_toDigits, Bool.not_false, Bool.and_self,
    if_true]

theorem toList_toString (i : Int) : (toString i).toList =
    if 0 ≤ i then Nat.toDigits 10 i.toNat else '-' :: Nat.toDigits 10 (-i).toNat := by
  rw [Int.toString_eq_repr, Int.repr_eq_if]
  split <;> simp [Nat.repr_eq_ofList_toDigits]

theorem readInt?_toString (i : Int) : readInt? (toString i).toList = some i := by
  rw [toList_toString]
  split
  · next hi =>
    rw [readInt?_of_splitSign (splitSign_toDigits i.toNat), signed, if_neg Bool.false_ne_true,
      Int.toNat_of_nonneg hi]
  · next hi =>
    have hmagnitude : ((-i).toNat : Int) = -i := Int.toNat_of_nonneg (by omega)
    have hsign : splitSign ('-' :: Nat.toDigits 10 (-i).toNat)
        = (true, Nat.toDigits 10 (-i).toNat) := rfl
    rw [readInt?_of_splitSign hsign, signed, if_pos rfl, hmagnitude, Int.neg_neg]

theorem fitsBits_iff (bits : Nat) (i : Int) :
    fitsBits bits i = true ↔ -2 ^ (bits - 1) ≤ i ∧ i < 2 ^ (bits - 1) := by
  have hpow : (Nat.pow 2 (bits - 1) : Int) = 2 ^ (bits - 1) := by
    rw [Nat.pow_eq, Int.natCast_pow]
    rfl
  rw [fitsBits, hpow, Bool.and_eq_true, decide_eq_true_eq, decide_eq_true_eq]

theorem readInt64?_toString {i : Int} (h : -2 ^ 63 ≤ i ∧ i < 2 ^ 63) :
    readInt64? (toString i).toList = some i := by
  rw [readInt64?, readInt?_toString, Option.filter_some, if_pos ((fitsBits_iff 64 i).mpr h)]

end LinkageCheck.Decimal
