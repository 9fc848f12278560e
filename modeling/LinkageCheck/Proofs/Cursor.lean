import LinkageCheck.Comparison
import LinkageCheck.Proofs.Candidates
import Mathlib.Logic.Function.Iterate

/-! A cursor has a list of linkages ahead of it, the current one first. A started cursor is a place
in the full list of candidates, the place behind the last one included. -/

namespace LinkageCheck

variable {α : Type} [Linkage α]

/-! ### What is ahead of a cursor -/

namespace CandidateSequence

/-- The linkages that the coming pulls bring, up to the first empty answer. -/
def upcoming (s : CandidateSequence α) : List α :=
  match _ : s.next.1 with
  | none => []
  | some a => a :: s.next.2.upcoming
termination_by s.remaining
decreasing_by exact remaining_next ‹_›

theorem upcoming_of_none {s : CandidateSequence α} (h : s.next.1 = none) : s.upcoming = [] := by
  rw [upcoming]
  split
  · rfl
  · next a hsome => exact absurd (h.symm.trans hsome) (Option.some_ne_none a).symm

theorem upcoming_of_some {s : CandidateSequence α} {a : α} (h : s.next.1 = some a) :
    s.upcoming = a :: s.next.2.upcoming := by
  rw [upcoming]
  split
  · next hnone => exact absurd (h.symm.trans hnone) (Option.some_ne_none a)
  · next b hsome =>
    obtain rfl : a = b := Option.some.inj (h.symm.trans hsome)
    rfl

theorem upcoming_eq_pending {s : CandidateSequence α} (h : s.source.StaysExhausted) :
    s.upcoming = s.pending := by
  have hnext := next_spec h
  fun_induction upcoming s with
  | case1 s hnone =>
    rw [hnone] at hnext
    exact (List.head?_eq_none_iff.mp hnext.1.symm).symm
  | case2 s a hsome ih =>
    obtain ⟨hhead, htail, hsource⟩ := hnext
    rw [ih hsource (next_spec hsource), htail]
    rw [hsome] at hhead
    exact List.cons_head?_tail hhead.symm

end CandidateSequence

namespace Cursor

/-- The current linkage and those still to come; nothing once there is no current one. -/
def ahead (c : Cursor α) : List α :=
  match c.standing with
  | some ⟨sequence, some current, _⟩ => current :: sequence.upcoming
  | _ => []

theorem head?_ahead (c : Cursor α) : c.ahead.head? = c.current := by
  rcases c with ⟨_ | ⟨sequence, _ | current, index⟩, earlier⟩ <;> rfl

theorem ahead_advance (c : Cursor α) : c.advance.ahead = c.ahead.tail := by
  rcases c with ⟨_ | ⟨sequence, _ | current, index⟩, earlier⟩
  · rfl
  · rfl
  · simp only [ahead, advance, List.tail_cons]
    rcases hnext : sequence.next.1 with _ | next
    · exact (CandidateSequence.upcoming_of_none hnext).symm
    · exact (CandidateSequence.upcoming_of_some hnext).symm

theorem ahead_iterate (c : Cursor α) (n : Nat) : (advance^[n] c).ahead = c.ahead.drop n := by
  induction n generalizing c with
  | zero => rfl
  | succ n ih => rw [Function.iterate_succ_apply, ih, ahead_advance, List.drop_tail]

theorem current_iterate (c : Cursor α) (n : Nat) : (advance^[n] c).current = c.ahead[n]? := by
  rw [← head?_ahead, ahead_iterate, List.head?_drop]

theorem ordinal_advance {c : Cursor α} (h : c.ahead ≠ []) :
    c.advance.ordinal = c.ordinal + 1 := by
  rcases c with ⟨_ | ⟨sequence, _ | current, index⟩, earlier⟩
  · exact absurd rfl h
  · exact absurd rfl h
  · rfl

theorem ordinal_iterate {c : Cursor α} {n : Nat} (h : n ≤ c.ahead.length) :
    (advance^[n] c).ordinal = c.ordinal + n := by
  induction n with
  | zero => rfl
  | succ n ih =>
    have hleft : (advance^[n] c).ahead ≠ [] := by
      rw [ahead_iterate]
      exact List.drop_eq_nil_iff.not.mpr (Nat.not_le.mpr h)
    rw [Function.iterate_succ_apply', ordinal_advance hleft, ih (Nat.le_of_succ_le h)]
    rfl

/-! ### Places among the candidates -/

/-- The cursor stands at place `i` of the candidates `xs`, where behind the last one nothing is
current. -/
def At (c : Cursor α) (xs : List α) (i : Nat) : Prop :=
  i ≤ xs.length ∧ ∃ sequence : CandidateSequence α, c.standing = some ⟨sequence, xs[i]?, i⟩
    ∧ sequence.pending = xs.drop (i + 1) ∧ sequence.source.StaysExhausted

theorem At.current {c : Cursor α} {xs : List α} {i : Nat} (h : c.At xs i) : c.current = xs[i]? := by
  obtain ⟨-, sequence, hstanding, -⟩ := h
  rw [Cursor.current, hstanding]
  rfl

theorem At.ordinal {c : Cursor α} {xs : List α} {i : Nat} (h : c.At xs i) : c.ordinal = i + 1 := by
  obtain ⟨-, sequence, hstanding, -⟩ := h
  rw [Cursor.ordinal, hstanding]
  rfl

theorem At.isStarted {c : Cursor α} {xs : List α} {i : Nat} (h : c.At xs i) :
    c.isStarted = true := by
  obtain ⟨-, sequence, hstanding, -⟩ := h
  rw [Cursor.isStarted, hstanding]
  rfl

theorem at_start (c : Cursor α) {d : Dictionary α} {text : String} {o : Options}
    {candidates : Candidates α} (order : CandidateOrder)
    (hparse : d.parse text o = .ok candidates) (h : candidates.StaysExhausted) :
    (c.start d text o order).1 = .ok ()
      ∧ (c.start d text o order).2.At (order.arrange candidates.toList) 0 := by
  have hsource : (CandidateSequence.ofCandidates candidates order).source.StaysExhausted := by
    rw [CandidateSequence.source_ofCandidates]
    exact h
  obtain ⟨hfirst, hrest, hnext⟩ := CandidateSequence.next_spec hsource
  rw [CandidateSequence.pending_ofCandidates] at hfirst hrest
  simp only [start, hparse]
  refine ⟨trivial, Nat.zero_le _, _, ?_, ?_, hnext⟩
  · rw [hfirst, List.head?_eq_getElem?]
  · rw [hrest, List.drop_one]

theorem At.advance {c : Cursor α} {xs : List α} {i : Nat} (h : c.At xs i) :
    c.advance.At xs (min (i + 1) xs.length) := by
  obtain ⟨hi, sequence, hstanding, hpending, hsource⟩ := h
  rcases hi.eq_or_lt with rfl | hlt
  · have hnone : c.advance = c := by
      rw [Cursor.advance, hstanding, List.getElem?_eq_none le_rfl]
    rw [hnone, Nat.min_eq_right (Nat.le_succ _)]
    exact ⟨le_rfl, sequence, hstanding, hpending, hsource⟩
  · obtain ⟨hfirst, hrest, hnext⟩ := CandidateSequence.next_spec hsource
    rw [Nat.min_eq_left hlt]
    refine ⟨hlt, sequence.next.2, ?_, ?_, hnext⟩
    · rw [Cursor.advance, hstanding, List.getElem?_eq_getElem hlt]
      simp only
      rw [hfirst, hpending, List.head?_drop]
    · rw [hrest, hpending, List.tail_drop]

theorem At.ahead {c : Cursor α} {xs : List α} {i : Nat} (h : c.At xs i) : c.ahead = xs.drop i := by
  obtain ⟨hi, sequence, hstanding, hpending, hsource⟩ := h
  rw [Cursor.ahead, hstanding]
  rcases hi.eq_or_lt with rfl | hlt
  · rw [List.getElem?_eq_none le_rfl, List.drop_length]
  · rw [List.getElem?_eq_getElem hlt, List.drop_eq_getElem_cons hlt, ← hpending,
      ← CandidateSequence.upcoming_eq_pending hsource]

theorem ahead_start (c : Cursor α) {d : Dictionary α} {text : String} {o : Options}
    {candidates : Candidates α} (order : CandidateOrder)
    (hparse : d.parse text o = .ok candidates) (h : candidates.StaysExhausted) :
    (c.start d text o order).2.ahead = order.arrange candidates.toList :=
  (c.at_start order hparse h).2.ahead

theorem At.iterate {c : Cursor α} {xs : List α} {i n : Nat} (h : c.At xs i)
    (hn : i + n ≤ xs.length) : (Cursor.advance^[n] c).At xs (i + n) := by
  induction n with
  | zero => exact h
  | succ n ih =>
    have hnext := (ih (by omega)).advance
    rw [Function.iterate_succ_apply']
    rwa [Nat.add_assoc, Nat.min_eq_left hn] at hnext

end Cursor

namespace Comparison

/-- The first place from `i` on whose candidate has the expected positions, or else the place behind
the last one. -/
def firstMatch (expected : String) (xs : List α) (i : Nat) : Nat :=
  i + (xs.drop i).findIdx (Linkage.positions · = expected)

theorem firstMatch_of_eq {expected : String} {xs : List α} {i : Nat} {linkage : α}
    (h : xs[i]? = some linkage) (heq : Linkage.positions linkage = expected) :
    firstMatch expected xs i = i := by
  obtain ⟨hi, rfl⟩ := List.getElem?_eq_some_iff.mp h
  rw [firstMatch, List.drop_eq_getElem_cons hi, List.findIdx_cons, decide_eq_true heq]
  rfl

theorem firstMatch_of_ne {expected : String} {xs : List α} {i : Nat} {linkage : α}
    (h : xs[i]? = some linkage) (hne : Linkage.positions linkage ≠ expected) :
    firstMatch expected xs i = firstMatch expected xs (i + 1) := by
  obtain ⟨hi, rfl⟩ := List.getElem?_eq_some_iff.mp h
  rw [firstMatch, List.drop_eq_getElem_cons hi, List.findIdx_cons, decide_eq_false hne, firstMatch]
  simp only [cond_false]
  omega

theorem firstMatch_length (expected : String) (xs : List α) :
    firstMatch expected xs xs.length = xs.length := by
  rw [firstMatch, List.drop_length, List.findIdx_nil, Nat.add_zero]

theorem firstMatch_drop (expected : String) (xs : List α) (i k : Nat) :
    firstMatch expected xs (i + k) = i + firstMatch expected (xs.drop i) k := by
  rw [firstMatch, firstMatch, List.drop_drop, Nat.add_assoc]

theorem firstMatch_le (expected : String) {xs : List α} {i : Nat} (h : i ≤ xs.length) :
    firstMatch expected xs i ≤ xs.length := by
  have hfound := (xs.drop i).findIdx_le_length (p := (Linkage.positions · = expected))
  rw [List.length_drop] at hfound
  rw [firstMatch]
  omega

def searched (expected : String) (tried : Nat) (xs : List α) (i : Nat) : Except Mismatch Unit :=
  if firstMatch expected xs i < xs.length then .ok ()
  else .error (.noMatch expected (tried + (xs.length - i)))

theorem searched_drop (expected : String) (tried : Nat) (xs : List α) (i k : Nat) :
    searched expected tried (xs.drop i) k = searched expected tried xs (i + k) := by
  have hfound : firstMatch expected (xs.drop i) k < xs.length - i
      ↔ i + firstMatch expected (xs.drop i) k < xs.length := by omega
  simp only [searched, firstMatch_drop, List.length_drop, hfound, Nat.sub_sub]

theorem searched_of_ne {expected : String} {xs : List α} {i : Nat} {linkage : α}
    (h : xs[i]? = some linkage) (hne : Linkage.positions linkage ≠ expected) (tried : Nat) :
    searched expected tried xs i = searched expected (tried + 1) xs (i + 1) := by
  obtain ⟨hi, -⟩ := List.getElem?_eq_some_iff.mp h
  have htried : tried + (xs.length - i) = tried + 1 + (xs.length - (i + 1)) := by omega
  rw [searched, searched, firstMatch_of_ne h hne, htried]

theorem search_of_none {expected : String} {tried : Nat} {c : Cursor α} {current : α}
    (hcurrent : c.current = some current) (h : c.advance.current = none) :
    search expected tried c current hcurrent = (.error (.noMatch expected tried), c.advance) := by
  rw [search]
  split
  · rfl
  · next hsome => exact absurd (h.symm.trans hsome) (Option.some_ne_none _).symm

theorem search_of_some {expected : String} {tried : Nat} {c : Cursor α} {current linkage : α}
    (hcurrent : c.current = some current) (h : c.advance.current = some linkage) :
    search expected tried c current hcurrent =
      if Linkage.positions linkage = expected then (.ok (), c.advance)
      else search expected (tried + 1) c.advance linkage h := by
  rw [search]
  split
  · next hnone => exact absurd (h.symm.trans hnone) (Option.some_ne_none _)
  · next linkage' hsome =>
    obtain rfl : linkage = linkage' := Option.some.inj (h.symm.trans hsome)
    rfl

theorem search_eq (expected : String) (tried : Nat) (c : Cursor α) (current : α)
    (hcurrent : c.current = some current) :
    search expected tried c current hcurrent =
      (searched expected tried c.ahead 1, Cursor.advance^[firstMatch expected c.ahead 1] c) := by
  have hsecond : ∀ c : Cursor α, c.advance.current = c.ahead[1]? := fun c => c.current_iterate 1
  -- one case for each turn of the search: dry, found, or on to the next candidate
  fun_induction search expected tried c current hcurrent with
  | case1 tried c current hcurrent hnone =>
    have hlength : c.ahead.length = 1 := by
      have hfirst := c.current_iterate 0
      rw [Function.iterate_zero_apply, hcurrent] at hfirst
      rw [hsecond] at hnone
      have hpos := (List.getElem?_eq_some_iff.mp hfirst.symm).1
      have hle := List.getElem?_eq_none_iff.mp hnone
      omega
    have hmatch : firstMatch expected c.ahead 1 = 1 := by
      rw [← hlength, firstMatch_length]
    rw [searched, hmatch, hlength]
    rfl
  | case2 tried c current hcurrent linkage hsome heq =>
    rw [hsecond] at hsome
    have hlength := (List.getElem?_eq_some_iff.mp hsome).1
    rw [searched, firstMatch_of_eq hsome heq, if_pos hlength]
    rfl
  | case3 tried c current hcurrent linkage hsome hne ih =>
    rw [hsecond] at hsome
    have hsteps : firstMatch expected c.ahead 2 = firstMatch expected (c.ahead.drop 1) 1 + 1 := by
      rw [firstMatch_drop expected c.ahead 1 1, Nat.add_comm]
    rw [ih, c.ahead_advance, ← List.drop_one, searched_drop, searched_of_ne hsome hne,
      firstMatch_of_ne hsome hne, hsteps, Function.iterate_succ_apply]

theorem checkPositions_of_none (expected : String) {c : Cursor α} (h : c.current = none) :
    checkPositions c expected = (.error (.noLinkage .wordPositions), c) := by
  rw [checkPositions]
  split
  · rfl
  · next linkage hsome => exact absurd (h.symm.trans hsome) (Option.some_ne_none linkage).symm

theorem checkPositions_of_some {expected : String} {c : Cursor α} {linkage : α}
    (h : c.current = some linkage) :
    checkPositions c expected =
      if Linkage.positions linkage = expected ∨ !isMarked expected then
        (compare .wordPositions expected (Linkage.positions linkage), c)
      else search expected 1 c linkage h := by
  rw [checkPositions]
  split
  · next hnone => exact absurd (h.symm.trans hnone) (Option.some_ne_none _)
  · next linkage' hsome =>
    obtain rfl : linkage = linkage' := Option.some.inj (h.symm.trans hsome)
    rfl

theorem checkPositions_of_not_marked {expected : String} {c : Cursor α} {linkage : α}
    (h : c.current = some linkage) (hmark : isMarked expected = false) :
    checkPositions c expected =
      (compare .wordPositions expected (Linkage.positions linkage), c) := by
  rw [checkPositions_of_some h, hmark, if_pos (.inr rfl)]

theorem checkPositions_of_isMarked {expected : String} {c : Cursor α} {linkage : α}
    (h : c.current = some linkage) (hmark : isMarked expected = true) :
    checkPositions c expected =
      (searched expected 0 c.ahead 0, Cursor.advance^[firstMatch expected c.ahead 0] c) := by
  have hplace : c.ahead[0]? = some linkage := (c.current_iterate 0).symm.trans h
  rw [checkPositions_of_some h]
  simp only [hmark, Bool.not_true, Bool.false_eq_true, or_false]
  by_cases heq : Linkage.positions linkage = expected
  · have hi := (List.getElem?_eq_some_iff.mp hplace).1
    rw [if_pos heq, searched, firstMatch_of_eq hplace heq, if_pos hi, compare, if_pos heq]
    rfl
  · rw [if_neg heq, search_eq, searched_of_ne hplace heq, firstMatch_of_ne hplace heq]

theorem checkPositions_of_marked {expected : String} {c : Cursor α} {xs : List α} {i : Nat}
    (h : c.At xs i) (hi : i < xs.length) (hmark : isMarked expected = true) :
    (checkPositions c expected).1 = searched expected 0 xs i
      ∧ (checkPositions c expected).2.At xs (firstMatch expected xs i) := by
  have hsome : c.current = some xs[i] := h.current.trans (List.getElem?_eq_getElem hi)
  have hbound := firstMatch_le expected hi.le
  rw [← Nat.add_zero i, firstMatch_drop] at hbound ⊢
  rw [checkPositions_of_isMarked hsome hmark, h.ahead, searched_drop]
  exact ⟨rfl, h.iterate hbound⟩

theorem exists_le_iterate_checkPositions (c : Cursor α) (expected : String) :
    ∃ n ≤ c.ahead.length, (checkPositions c expected).2 = Cursor.advance^[n] c := by
  rcases hcurrent : c.current with _ | first
  · rw [checkPositions_of_none expected hcurrent]
    exact ⟨0, Nat.zero_le _, rfl⟩
  · rcases hmark : isMarked expected with _ | _
    · rw [checkPositions_of_not_marked hcurrent hmark]
      exact ⟨0, Nat.zero_le _, rfl⟩
    · rw [checkPositions_of_isMarked hcurrent hmark]
      exact ⟨_, firstMatch_le expected (Nat.zero_le _), rfl⟩

end Comparison

end LinkageCheck
