import LinkageCheck.Proofs.Cursor
import Mathlib.Order.Bounds.Basic

/-! Comparing word positions. A text that marks no guess is compared where the cursor stands; a
marked one moves it to the first linkage ahead that matches, or else past all of them. -/

namespace LinkageCheck

variable {α : Type} [Linkage α]

namespace Comparison

theorem isMarked_iff (expected : String) :
    isMarked expected = true ↔ '~' ∈ expected.toList ∨ '&' ∈ expected.toList := by
  simp only [isMarked, List.any_eq_true, Bool.or_eq_true, beq_iff_eq]
  constructor
  · rintro ⟨c, hc, rfl | rfl⟩
    · exact .inl hc
    · exact .inr hc
  · rintro (h | h)
    · exact ⟨'~', h, .inl rfl⟩
    · exact ⟨'&', h, .inr rfl⟩

theorem firstMatch_lt_length_iff (expected : String) (xs : List α) :
    firstMatch expected xs 0 < xs.length ↔ ∃ x ∈ xs, Linkage.positions x = expected := by
  rw [firstMatch, Nat.zero_add, List.drop_zero, List.findIdx_lt_length]
  simp only [decide_eq_true_eq]

theorem searched_eq_ok_iff (expected : String) (tried : Nat) (xs : List α) :
    searched expected tried xs 0 = .ok () ↔ ∃ x ∈ xs, Linkage.positions x = expected := by
  rw [← firstMatch_lt_length_iff, searched]
  by_cases hfound : firstMatch expected xs 0 < xs.length
  · simp only [hfound, if_true]
  · simp only [hfound, if_false, reduceCtorEq]

theorem searched_of_forall_ne {expected : String} {xs : List α}
    (h : ∀ x ∈ xs, Linkage.positions x ≠ expected) :
    searched expected 0 xs 0 = .error (.noMatch expected xs.length)
      ∧ firstMatch expected xs 0 = xs.length := by
  have hnone : ¬ firstMatch expected xs 0 < xs.length := by
    rw [firstMatch_lt_length_iff]
    rintro ⟨x, hx, heq⟩
    exact h x hx heq
  have hbound := firstMatch_le expected xs.length.zero_le
  rw [searched, if_neg hnone, Nat.zero_add, Nat.sub_zero]
  exact ⟨rfl, Nat.le_antisymm hbound (Nat.not_lt.mp hnone)⟩

theorem firstMatch_of_isLeast {expected : String} {xs : List α} {j : Nat}
    (h : IsLeast {i | ∃ x ∈ xs[i]?, Linkage.positions x = expected} j) :
    firstMatch expected xs 0 = j := by
  obtain ⟨⟨x, hx, heq⟩, hleast⟩ := h
  obtain ⟨hj, hplace⟩ := List.getElem?_eq_some_iff.mp hx
  rw [firstMatch, Nat.zero_add, List.drop_zero, List.findIdx_eq hj, hplace]
  refine ⟨decide_eq_true heq, fun i hi => decide_eq_false fun hmatch => ?_⟩
  have hle := hleast ⟨_, List.getElem?_eq_getElem (hi.trans hj), hmatch⟩
  exact absurd hi (Nat.not_lt.mpr hle)

theorem checkPositions_of_ahead_nil {c : Cursor α} (h : c.ahead = []) (expected : String) :
    checkPositions c expected = (.error (.noLinkage .wordPositions), c) := by
  apply checkPositions_of_none
  rw [← c.head?_ahead, h]
  rfl

theorem checkPositions_plain {c : Cursor α} {expected : String} {first : α}
    (h : first ∈ c.ahead.head?) (hmark : isMarked expected = false) :
    let found := checkPositions c expected
    (found.1 = .ok () ↔ Linkage.positions first = expected)
      ∧ (Linkage.positions first ≠ expected →
        found.1 = .error (.different .wordPositions expected (Linkage.positions first)))
      ∧ found.2 = c := by
  rw [c.head?_ahead] at h
  simp only [checkPositions_of_not_marked h hmark, compare]
  by_cases heq : Linkage.positions first = expected
  · simp only [heq, if_true, ne_eq, not_true_eq_false, false_implies, and_self]
  · simp only [heq, if_false, reduceCtorEq, ne_eq, not_false_eq_true, true_implies, and_self]

theorem checkPositions_marked {c : Cursor α} {expected : String} (h : c.ahead ≠ [])
    (hmark : isMarked expected = true) :
    let found := checkPositions c expected
    (found.1 = .ok () ↔ ∃ x ∈ c.ahead, Linkage.positions x = expected)
      ∧ (∀ j, IsLeast {i | ∃ x ∈ c.ahead[i]?, Linkage.positions x = expected} j →
        found.2 = Cursor.advance^[j] c ∧ found.2.current = c.ahead[j]?)
      ∧ ((∀ x ∈ c.ahead, Linkage.positions x ≠ expected) →
        found.1 = .error (.noMatch expected c.ahead.length) ∧ found.2.current = none) := by
  obtain ⟨first, rest, hcons⟩ := List.exists_cons_of_ne_nil h
  have hcurrent : c.current = some first := by
    rw [← c.head?_ahead, hcons]
    rfl
  simp only [checkPositions_of_isMarked hcurrent hmark, Cursor.current_iterate]
  refine ⟨searched_eq_ok_iff expected 0 c.ahead, fun j hleast => ?_, fun hnone => ?_⟩
  · rw [firstMatch_of_isLeast hleast]
    exact ⟨rfl, rfl⟩
  · obtain ⟨hresult, hlast⟩ := searched_of_forall_ne hnone
    rw [hlast]
    exact ⟨hresult, List.getElem?_eq_none le_rfl⟩

/-- Without a linkage nothing is compared. A text that marks no guess is compared with the current
linkage alone. A marked text moves the cursor to the first linkage ahead that matches, and past all
of them only if none does; each step from a linkage adds one to the ordinal, so there are at most as
many steps as linkages. -/
theorem checkPositions_ahead (c : Cursor α) (expected : String) :
    let found := checkPositions c expected
    (c.ahead = [] → found = (.error (.noLinkage .wordPositions), c))
      ∧ (∀ first ∈ c.ahead.head?, '~' ∉ expected.toList → '&' ∉ expected.toList →
        (found.1 = .ok () ↔ Linkage.positions first = expected)
          ∧ (Linkage.positions first ≠ expected →
            found.1 = .error (.different .wordPositions expected (Linkage.positions first)))
          ∧ found.2 = c)
      ∧ (c.ahead ≠ [] → '~' ∈ expected.toList ∨ '&' ∈ expected.toList →
        (found.1 = .ok () ↔ ∃ x ∈ c.ahead, Linkage.positions x = expected)
          ∧ (∀ j, IsLeast {i | ∃ x ∈ c.ahead[i]?, Linkage.positions x = expected} j →
            found.2 = Cursor.advance^[j] c ∧ found.2.current = c.ahead[j]?)
          ∧ ((∀ x ∈ c.ahead, Linkage.positions x ≠ expected) →
            found.1 = .error (.noMatch expected c.ahead.length) ∧ found.2.current = none))
      ∧ ∃ n ≤ c.ahead.length, found.2 = Cursor.advance^[n] c
        ∧ found.2.ordinal = c.ordinal + n := by
  intro found
  refine ⟨fun hnil => checkPositions_of_ahead_nil hnil expected,
    fun first hfirst htilde hamp => ?_, fun hne hmarked => ?_, ?_⟩
  · have hmark : isMarked expected = false := by
      rw [← Bool.not_eq_true, isMarked_iff, not_or]
      exact ⟨htilde, hamp⟩
    exact checkPositions_plain hfirst hmark
  · exact checkPositions_marked hne ((isMarked_iff expected).mpr hmarked)
  · obtain ⟨n, hn, hsteps⟩ := exists_le_iterate_checkPositions c expected
    refine ⟨n, hn, hsteps, ?_⟩
    rw [show found.2 = Cursor.advance^[n] c from hsteps, Cursor.ordinal_iterate hn]

end Comparison

end LinkageCheck
