import LinkageCheck.Proofs.Cursor
import Mathlib.Logic.Function.Iterate

/-! Cursors that no comparison tells apart: every comparison comes out the same on both of them, and
leaves them so. -/

namespace LinkageCheck

variable {α : Type} [Linkage α]

/-- No comparison tells the two linkages apart. -/
structure Linkage.Alike (a b : α) : Prop where
  diagram : Linkage.diagram a = Linkage.diagram b
  constituents : Linkage.constituents a = Linkage.constituents b
  words : Linkage.words a = Linkage.words b

namespace Linkage.Alike

variable {a b : α}

theorem refl (a : α) : Linkage.Alike a a := ⟨rfl, rfl, rfl⟩

theorem positions (h : Linkage.Alike a b) : Linkage.positions a = Linkage.positions b := by
  rw [Linkage.positions, Linkage.positions, h.words]

theorem option_refl (x : Option α) : Option.Rel Linkage.Alike x x := by
  rcases x with _ | a
  · exact .none
  · exact .some (refl a)

end Linkage.Alike

namespace Cursor

/-- However far both advance, they show alike linkages under the same ordinals. -/
def Alike (c c' : Cursor α) : Prop :=
  ∀ n, Option.Rel Linkage.Alike (advance^[n] c).current (advance^[n] c').current
    ∧ (advance^[n] c).ordinal = (advance^[n] c').ordinal

variable {c c' : Cursor α}

theorem Alike.current (h : c.Alike c') : Option.Rel Linkage.Alike c.current c'.current := (h 0).1

theorem Alike.ordinal (h : c.Alike c') : c.ordinal = c'.ordinal := (h 0).2

theorem Alike.isSome_current (h : c.Alike c') : c.current.isSome = c'.current.isSome := by
  have hcurrent := h.current
  revert hcurrent
  generalize c.current = x
  generalize c'.current = y
  rintro (hlinkage | _) <;> rfl

theorem Alike.current_eq_none (h : c.Alike c') (hnone : c.current = none) :
    c'.current = none := by
  have hsome := h.isSome_current
  rw [hnone] at hsome
  exact Option.isNone_iff_eq_none.mp (Option.isSome_eq_false_iff.mp hsome.symm)

theorem Alike.exists_current (h : c.Alike c') {linkage : α} (hsome : c.current = some linkage) :
    ∃ linkage', c'.current = some linkage' ∧ Linkage.Alike linkage linkage' := by
  have hcurrent := h.current
  rw [hsome] at hcurrent
  rcases h' : c'.current with _ | linkage'
  · rw [h'] at hcurrent
    cases hcurrent
  · rw [h'] at hcurrent
    exact ⟨linkage', rfl, Option.rel_some_some.mp hcurrent⟩

theorem Alike.advance (h : c.Alike c') : c.advance.Alike c'.advance := by
  intro n
  have hnext := h (n + 1)
  rwa [Function.iterate_succ_apply, Function.iterate_succ_apply] at hnext

omit [Linkage α] in
theorem isStarted_eq (c : Cursor α) : c.isStarted = (c.ordinal != 0) := by
  rcases c with ⟨_ | standing, earlier⟩ <;> rfl

theorem Alike.isStarted (h : c.Alike c') : c.isStarted = c'.isStarted := by
  rw [isStarted_eq, isStarted_eq, h.ordinal]

theorem standing_advance (h : c.standing = c'.standing) :
    c.advance.standing = c'.advance.standing := by
  rcases c with ⟨standing, earlier⟩
  rcases c' with ⟨standing', earlier'⟩
  obtain rfl : standing = standing' := h
  rcases standing with _ | ⟨sequence, _ | linkage, index⟩ <;> rfl

theorem alike_of_standing (h : c.standing = c'.standing) : c.Alike c' := by
  have hlater : ∀ n, (Cursor.advance^[n] c).standing = (Cursor.advance^[n] c').standing := by
    intro n
    induction n with
    | zero => exact h
    | succ n ih =>
      rw [Function.iterate_succ_apply', Function.iterate_succ_apply']
      exact standing_advance ih
  intro n
  rw [Cursor.current, Cursor.current, Cursor.ordinal, Cursor.ordinal, hlater n]
  exact ⟨Linkage.Alike.option_refl _, rfl⟩

end Cursor

namespace Comparison

variable {c c' : Cursor α} {x y : Option α}

theorem checkNone_alike (h : Option.Rel Linkage.Alike x y) : checkNone x = checkNone y := by
  cases h <;> rfl

theorem checkDiagram_alike (h : Option.Rel Linkage.Alike x y) (expected : String) :
    checkDiagram x expected = checkDiagram y expected := by
  cases h with
  | some hab => rw [checkDiagram, checkDiagram, hab.diagram]
  | none => rfl

theorem checkConstituents_alike (h : Option.Rel Linkage.Alike x y) (expected : String) :
    checkConstituents x expected = checkConstituents y expected := by
  cases h with
  | some hab => rw [checkConstituents, checkConstituents, hab.constituents]
  | none => rfl

theorem search_alike (expected : String) (tried : Nat) (c : Cursor α) (current : α)
    (hcurrent : c.current = some current) {c' : Cursor α} {current' : α}
    (hcurrent' : c'.current = some current') (h : c.Alike c') :
    (search expected tried c current hcurrent).1 = (search expected tried c' current' hcurrent').1
      ∧ (search expected tried c current hcurrent).2.Alike
        (search expected tried c' current' hcurrent').2 := by
  have hnext := h.advance
  -- one case for each turn of the search, which the other cursor takes as well
  fun_induction search expected tried c current hcurrent generalizing c' current' with
  | case1 tried c current hcurrent hnone =>
    rw [search_of_none hcurrent' (hnext.current_eq_none hnone)]
    exact ⟨rfl, hnext⟩
  | case2 tried c current hcurrent linkage hsome heq =>
    obtain ⟨linkage', hother, hlinkage⟩ := hnext.exists_current hsome
    rw [search_of_some hcurrent' hother, if_pos (hlinkage.positions.symm.trans heq)]
    exact ⟨rfl, hnext⟩
  | case3 tried c current hcurrent linkage hsome hne ih =>
    obtain ⟨linkage', hother, hlinkage⟩ := hnext.exists_current hsome
    rw [search_of_some hcurrent' hother, if_neg fun heq => hne (hlinkage.positions.trans heq)]
    exact ih hother hnext hnext.advance

theorem checkPositions_alike (h : c.Alike c') (expected : String) :
    (checkPositions c expected).1 = (checkPositions c' expected).1
      ∧ (checkPositions c expected).2.Alike (checkPositions c' expected).2 := by
  rcases hcurrent : c.current with _ | linkage
  · rw [checkPositions_of_none expected hcurrent,
      checkPositions_of_none expected (h.current_eq_none hcurrent)]
    exact ⟨rfl, h⟩
  · obtain ⟨linkage', hother, hlinkage⟩ := h.exists_current hcurrent
    rw [checkPositions_of_some hcurrent, checkPositions_of_some hother, hlinkage.positions]
    split
    · exact ⟨rfl, h⟩
    · exact search_alike expected 1 c linkage hcurrent hother h

end Comparison

end LinkageCheck
