import LinkageCheck.Decimal.Binary64
import Mathlib.Order.WithBot
import Mathlib.Tactic.Ring

/-! What numbers of the binary64 format stand for. Each value but zero has one form, so numbers are
equal just if their values are. -/

namespace LinkageCheck.Decimal.Binary64

def signed (negative : Bool) (magnitude : Nat) : Int :=
  if negative then -magnitude else magnitude

/-- The number in units of the smallest positive one. NaN is no number. -/
def value : Binary64 → Option (WithBot (WithTop Int))
  | nan => none
  | infinite negative => some (if negative then ⊥ else ((⊤ : WithTop Int) : WithBot (WithTop Int)))
  | finite negative significand exponent _ =>
    some (signed negative (significand * 2 ^ exponent) : WithTop Int)

theorem signed_eq_iff (s t : Bool) (m n : Nat) :
    signed s m = signed t n ↔ m = n ∧ (s = t ∨ m = 0) := by
  cases s <;> cases t <;> simp [signed] <;> omega

theorem le_of_scaled_eq {m n e f : Nat} (hm : 2 ^ 52 ≤ m ∨ e = 0) (hn : n < 2 ^ 53)
    (h : m * 2 ^ e = n * 2 ^ f) : e ≤ f := by
  by_contra hlt
  obtain ⟨k, rfl⟩ := Nat.exists_eq_add_of_lt (Nat.not_le.mp hlt)
  have hm := hm.resolve_right (by omega)
  have hpow : 2 ^ 53 = 2 * 2 ^ 52 := by decide
  have hsplit : 2 ^ (f + k + 1) = 2 * 2 ^ k * 2 ^ f := by
    ring
  rw [hsplit, ← Nat.mul_assoc] at h
  have hlarge : m * (2 * 2 ^ k) = n := Nat.eq_of_mul_eq_mul_right (Nat.two_pow_pos f) h
  have hmore : m * 2 ≤ m * (2 * 2 ^ k) :=
    Nat.mul_le_mul_left m (Nat.le_mul_of_pos_right 2 (Nat.two_pow_pos k))
  omega

theorem scaled_eq_iff {m n e f : Nat} (hm : m < 2 ^ 53 ∧ (2 ^ 52 ≤ m ∨ e = 0))
    (hn : n < 2 ^ 53 ∧ (2 ^ 52 ≤ n ∨ f = 0)) :
    m * 2 ^ e = n * 2 ^ f ↔ m = n ∧ e = f := by
  constructor
  · intro h
    have hef : e = f :=
      Nat.le_antisymm (le_of_scaled_eq hm.2 hn.1 h) (le_of_scaled_eq hn.2 hm.1 h.symm)
    subst hef
    exact ⟨Nat.eq_of_mul_eq_mul_right (Nat.two_pow_pos e) h, rfl⟩
  · rintro ⟨rfl, rfl⟩
    rfl

/-- Zeros of both signs are one number, and NaN is equal to nothing. -/
theorem equals_iff (x y : Binary64) :
    x.equals y = true ↔ ∃ v, x.value = some v ∧ y.value = some v := by
  cases x with
  | nan => simp [equals, value]
  | infinite s =>
    cases y with
    | nan => simp [equals, value]
    | infinite t => cases s <;> cases t <;> simp [equals, value]
    | finite t n f hn => cases s <;> simp [equals, value]
  | finite s m e hm =>
    cases y with
    | nan => simp [equals, value]
    | infinite t => cases t <;> simp [equals, value]
    | finite t n f hn =>
      have hscaled := scaled_eq_iff ⟨hm.1, hm.2.1⟩ ⟨hn.1, hn.2.1⟩
      have hzero : m * 2 ^ e = 0 ↔ m = 0 := by simp
      have hsigned := signed_eq_iff s t (m * 2 ^ e) (n * 2 ^ f)
      rw [hscaled, hzero] at hsigned
      simp only [equals, value, Option.some.injEq, exists_eq_left', WithBot.coe_inj,
        WithTop.coe_inj, Bool.and_eq_true, Bool.or_eq_true, beq_iff_eq]
      rw [eq_comm (a := signed t _), hsigned]

end LinkageCheck.Decimal.Binary64
