import LinkageCheck.Corpus.Recorded
import LinkageCheck.Proofs.Cursor

/-! Whatever is done with a cursor, it behaves as a place in a list: every operation gives the
answer that the place gives, and moves the cursor as it moves the place. -/

namespace LinkageCheck

variable {α : Type} [Linkage α]

inductive Operation where
  | start (text : String) (o : Options) (order : CandidateOrder)
  | advance
  | checkNone
  | checkDiagram (expected : String)
  | checkConstituents (expected : String)
  | checkPositions (expected : String)

inductive Answer (α : Type) where
  | started (outcome : Except EngineError Unit)
  | arrived (current : Option α)
  | checked (outcome : Except Mismatch Unit)

def Cursor.perform (d : Dictionary α) (c : Cursor α) : Operation → Answer α × Cursor α
  | .start text o order =>
    let (outcome, c) := c.start d text o order
    (.started outcome, c)
  | .advance => (.arrived c.advance.current, c.advance)
  | .checkNone => (.checked (Comparison.checkNone c.current), c)
  | .checkDiagram expected => (.checked (Comparison.checkDiagram c.current expected), c)
  | .checkConstituents expected => (.checked (Comparison.checkConstituents c.current expected), c)
  | .checkPositions expected =>
    let (outcome, c) := Comparison.checkPositions c expected
    (.checked outcome, c)

def Cursor.performAll (d : Dictionary α) (c : Cursor α) :
    List Operation → List (Answer α) × Cursor α
  | [] => ([], c)
  | op :: ops =>
    let (answer, c) := c.perform d op
    let (answers, c) := c.performAll d ops
    (answer :: answers, c)

/-- Before any sentence, or at a place among its candidates, the one behind the last included. -/
inductive Place (α : Type) where
  | idle
  | among (xs : List α) (i : Nat) (bound : i ≤ xs.length)

namespace Place

def isStarted : Place α → Bool
  | idle => false
  | among _ _ _ => true

def current : Place α → Option α
  | idle => none
  | among xs i _ => xs[i]?

def ordinal : Place α → Nat
  | idle => 0
  | among _ i _ => i + 1

def ofAnswer (order : CandidateOrder) :
    Except EngineError (Candidates α) → Except EngineError Unit × Place α
  | .error e => (.error e, idle)
  | .ok candidates => (.ok (), among (order.arrange candidates.toList) 0 (Nat.zero_le _))

def advance : Place α → Place α
  | idle => idle
  | among xs i _ => among xs (min (i + 1) xs.length) (Nat.min_le_right _ _)

def checkPositions (expected : String) : Place α → Except Mismatch Unit × Place α
  | idle => (.error (.noLinkage .wordPositions), idle)
  | among xs i bound =>
    match xs[i]? with
    | none => (.error (.noLinkage .wordPositions), among xs i bound)
    | some linkage =>
      if Comparison.isMarked expected then
        (Comparison.searched expected 0 xs i,
          among xs (Comparison.firstMatch expected xs i) (Comparison.firstMatch_le expected bound))
      else
        (Comparison.compare .wordPositions expected (Linkage.positions linkage), among xs i bound)

def perform (d : Dictionary α) (p : Place α) : Operation → Answer α × Place α
  | .start text o order =>
    let (outcome, p) := ofAnswer order (d.parse text o)
    (.started outcome, p)
  | .advance => (.arrived p.advance.current, p.advance)
  | .checkNone => (.checked (Comparison.checkNone p.current), p)
  | .checkDiagram expected => (.checked (Comparison.checkDiagram p.current expected), p)
  | .checkConstituents expected => (.checked (Comparison.checkConstituents p.current expected), p)
  | .checkPositions expected =>
    let (outcome, p) := p.checkPositions expected
    (.checked outcome, p)

def performAll (d : Dictionary α) (p : Place α) : List Operation → List (Answer α) × Place α
  | [] => ([], p)
  | op :: ops =>
    let (answer, p) := p.perform d op
    let (answers, p) := p.performAll d ops
    (answer :: answers, p)

inductive Forward : Place α → Place α → Prop where
  | idle : Forward .idle .idle
  | among {xs : List α} {i j : Nat} {hi : i ≤ xs.length} {hj : j ≤ xs.length} (h : i ≤ j) :
    Forward (.among xs i hi) (.among xs j hj)

theorem forward_checkPositions (p : Place α) (expected : String) :
    p.Forward (p.checkPositions expected).2 := by
  cases p with
  | idle => exact .idle
  | among xs i bound =>
    rw [checkPositions]
    split
    · exact .among le_rfl
    · split
      · exact .among (Nat.le_add_right i _)
      · exact .among le_rfl

end Place

namespace Cursor

variable {d : Dictionary α} {c : Cursor α} {p : Place α}

def StandsAt (c : Cursor α) : Place α → Prop
  | .idle => c.standing = none
  | .among xs i _ => c.At xs i

theorem StandsAt.current (h : c.StandsAt p) : c.current = p.current := by
  cases p with
  | idle =>
    have hnone : c.standing = none := h
    rw [Cursor.current, hnone]
    rfl
  | among xs i bound => exact At.current h

theorem StandsAt.ordinal (h : c.StandsAt p) : c.ordinal = p.ordinal := by
  cases p with
  | idle =>
    have hnone : c.standing = none := h
    rw [Cursor.ordinal, hnone]
    rfl
  | among xs i bound => exact At.ordinal h

theorem StandsAt.isStarted (h : c.StandsAt p) : c.isStarted = p.isStarted := by
  cases p with
  | idle =>
    have hnone : c.standing = none := h
    rw [Cursor.isStarted, hnone]
    rfl
  | among xs i bound => exact At.isStarted h

theorem standsAt_start (c : Cursor α) (text : String) (o : Options) (order : CandidateOrder)
    (hfinite : ∀ candidates, d.parse text o = .ok candidates → candidates.StaysExhausted) :
    (c.start d text o order).1 = (Place.ofAnswer order (d.parse text o)).1
      ∧ (c.start d text o order).2.StandsAt (Place.ofAnswer order (d.parse text o)).2 := by
  rcases hparse : d.parse text o with e | candidates
  · simp only [start, hparse, Place.ofAnswer]
    exact ⟨trivial, rfl⟩
  · exact c.at_start order hparse (hfinite candidates hparse)

theorem StandsAt.advance (h : c.StandsAt p) : c.advance.StandsAt p.advance := by
  cases p with
  | idle =>
    have hnone : c.standing = none := h
    have hstays : c.advance = c := by
      simp only [Cursor.advance, hnone]
    rw [hstays]
    exact h
  | among xs i bound => exact At.advance h

theorem StandsAt.checkPositions (h : c.StandsAt p) (expected : String) :
    (Comparison.checkPositions c expected).1 = (p.checkPositions expected).1
      ∧ (Comparison.checkPositions c expected).2.StandsAt (p.checkPositions expected).2 := by
  have hcurrent := h.current
  cases p with
  | idle =>
    rw [Comparison.checkPositions_of_none expected hcurrent]
    exact ⟨rfl, h⟩
  | among xs i bound =>
    have hat : c.At xs i := h
    rw [Place.current] at hcurrent
    rcases hplace : xs[i]? with _ | linkage
    · rw [Comparison.checkPositions_of_none expected (hcurrent.trans hplace)]
      simp only [Place.checkPositions, hplace]
      exact ⟨trivial, h⟩
    · have hi : i < xs.length := (List.getElem?_eq_some_iff.mp hplace).1
      rcases hmark : Comparison.isMarked expected with _ | _
      · rw [Comparison.checkPositions_of_not_marked (hcurrent.trans hplace) hmark]
        simp only [Place.checkPositions, hplace, hmark]
        exact ⟨rfl, h⟩
      · have hsearch := Comparison.checkPositions_of_marked hat hi hmark
        simp only [Place.checkPositions, hplace, hmark, if_true]
        exact hsearch

theorem StandsAt.perform (hfinite : ∀ text o c, d.parse text o = .ok c → c.StaysExhausted)
    (h : c.StandsAt p) (op : Operation) :
    (c.perform d op).1 = (p.perform d op).1
      ∧ (c.perform d op).2.StandsAt (p.perform d op).2 := by
  cases op with
  | start text o order =>
    obtain ⟨houtcome, hstands⟩ := c.standsAt_start text o order (hfinite text o)
    exact ⟨congrArg Answer.started houtcome, hstands⟩
  | advance => exact ⟨congrArg Answer.arrived h.advance.current, h.advance⟩
  | checkNone =>
    simp only [Cursor.perform, Place.perform, h.current]
    exact ⟨trivial, h⟩
  | checkDiagram expected =>
    simp only [Cursor.perform, Place.perform, h.current]
    exact ⟨trivial, h⟩
  | checkConstituents expected =>
    simp only [Cursor.perform, Place.perform, h.current]
    exact ⟨trivial, h⟩
  | checkPositions expected =>
    obtain ⟨houtcome, hstands⟩ := h.checkPositions expected
    exact ⟨congrArg Answer.checked houtcome, hstands⟩

theorem StandsAt.performAll (hfinite : ∀ text o c, d.parse text o = .ok c → c.StaysExhausted)
    (h : c.StandsAt p) (ops : List Operation) :
    (c.performAll d ops).1 = (p.performAll d ops).1
      ∧ (c.performAll d ops).2.StandsAt (p.performAll d ops).2 := by
  induction ops generalizing c p with
  | nil => exact ⟨rfl, h⟩
  | cons op ops ih =>
    obtain ⟨hanswer, hnext⟩ := h.perform hfinite op
    obtain ⟨hanswers, hlast⟩ := ih hnext
    simp only [Cursor.performAll, Place.performAll]
    exact ⟨by rw [hanswer, hanswers], hlast⟩

/-- A cursor that was never used and a place that is idle go through any operations alike. -/
theorem performAll_eq_place (hfinite : ∀ text o c, d.parse text o = .ok c → c.StaysExhausted)
    (ops : List Operation) :
    let used := (idle : Cursor α).performAll d ops
    let place := (Place.idle : Place α).performAll d ops
    used.1 = place.1 ∧ used.2.isStarted = place.2.isStarted ∧ used.2.current = place.2.current
      ∧ used.2.ordinal = place.2.ordinal
      ∧ ∀ expected, place.2.Forward (place.2.checkPositions expected).2 := by
  intro used place
  have hidle : (idle : Cursor α).StandsAt .idle := rfl
  obtain ⟨hanswers, hstands⟩ := hidle.performAll hfinite ops
  exact ⟨hanswers, hstands.isStarted, hstands.current, hstands.ordinal,
    place.2.forward_checkPositions⟩

end Cursor

def knowing (text : String) (linkages : List RecordedLinkage) : Dictionary RecordedLinkage where
  lang := "en"
  hasSpellGuess := false
  parse asked _ :=
    if asked = text then .ok (.ofList linkages) else .error (.unknownSentence "en" asked)

def guess (word : String) : RecordedLinkage :=
  ⟨[⟨word, ⟨0, 2⟩, ⟨0, 2⟩⟩], .ofWords [word], "", .zero, true⟩

theorem Cursor.performAll_eq_place_guesses :
    let d := knowing "hi" [guess "a~", guess "b~", guess "c~"]
    let search := [.start "hi" .standard .engine, .checkPositions "b~(0, 2)\nb~(0, 2)\n"]
    let refused := search ++ [.advance, .start "ho" .standard .equalCost]
    ((Cursor.idle : Cursor RecordedLinkage).performAll d search).2.ordinal = 2
      ∧ ((Cursor.idle : Cursor RecordedLinkage).performAll d refused).2.isStarted = false := by
  intro d search refused
  have hfinite : ∀ text o c, d.parse text o = .ok c → c.StaysExhausted := by
    intro text o c hparse
    by_cases htext : text = "hi"
    · simp only [d, knowing, htext, if_true] at hparse
      obtain rfl := Except.ok.inj hparse
      exact Candidates.staysExhausted_ofList _
    · simp only [d, knowing, htext, if_false] at hparse
      cases hparse
  obtain ⟨-, -, -, hordinal, -⟩ := Cursor.performAll_eq_place hfinite search
  obtain ⟨-, hstarted, -, -, -⟩ := Cursor.performAll_eq_place hfinite refused
  rw [hordinal, hstarted]
  decide +kernel

end LinkageCheck
