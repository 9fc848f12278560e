import LinkageCheck.Corpus.Recorded
import LinkageCheck.Proofs.Record.Recordable
import LinkageCheck.Proofs.Search

/-! The positions of a linkage say its words. A position has one blank, between the two numbers of
its span, so that the blanks of a line cut it into halves of positions; and the last parenthesis of
a half ends the word, whatever the word has inside. -/

namespace LinkageCheck

namespace PlacedWord

/-- The text can stand between blanks on one line; it may be empty and have any other marks. -/
def Unbroken (w : PlacedWord) : Prop := ' ' ∉ w.text.toList ∧ '\n' ∉ w.text.toList

instance (w : PlacedWord) : Decidable w.Unbroken := inferInstanceAs (Decidable (_ ∧ _))

/-! ### One position -/

def opening (word : String) (span : Span) : List Char :=
  word.toList ++ '(' :: (Nat.toDigits 10 span.start ++ [','])

def closing (span : Span) : List Char := Nat.toDigits 10 span.stop ++ [')']

theorem position_eq_halves (word : String) (span : Span) :
    (position word span).toList = opening word span ++ [' '] ++ closing span := by
  have hcomma : (", " : String).toList = [',', ' '] := by decide
  simp [position_eq, opening, closing, hcomma]

theorem blank_not_mem_opening {w : PlacedWord} (h : w.Unbroken) (span : Span) :
    ' ' ∉ opening w.text span := by
  have hdigits : ' ' ∉ Nat.toDigits 10 span.start := Decimal.not_mem_toDigits (by decide)
  simp [opening, h.1, hdigits]

theorem blank_not_mem_closing (span : Span) : ' ' ∉ closing span := by
  have hdigits : ' ' ∉ Nat.toDigits 10 span.stop := Decimal.not_mem_toDigits (by decide)
  simp [closing, hdigits]

variable {word word' : String} {span span' : Span}

theorem eq_of_opening_eq (h : opening word span = opening word' span') :
    word = word' ∧ span.start = span'.start := by
  -- Words may have parentheses themselves, but no digit and no comma is one.
  have hparen (n : Nat) : '(' ∉ Nat.toDigits 10 n ++ [','] := by
    have hdigits : '(' ∉ Nat.toDigits 10 n := Decimal.not_mem_toDigits (by decide)
    simp [hdigits]
  obtain ⟨hword, hstart⟩ := Text.eq_of_append_cons_eq (hparen _) (hparen _) h
  exact ⟨String.toList_inj.mp hword, Decimal.toDigits_injective (List.append_cancel_right hstart)⟩

theorem eq_of_closing_eq (h : closing span = closing span') : span.stop = span'.stop :=
  Decimal.toDigits_injective (List.append_cancel_right h)

end PlacedWord

/-! ### A line of positions -/

open PlacedWord

variable {words words' : List PlacedWord} {span : PlacedWord → Span}

def positionHalves (words : List PlacedWord) (span : PlacedWord → Span) : List (List Char) :=
  words.flatMap fun w => [opening w.text (span w), closing (span w)]

theorem positionLine_eq_halves (words : List PlacedWord) (span : PlacedWord → Span) :
    positionLine words span = [' '].intercalate (positionHalves words span) := by
  induction words with
  | nil => rfl
  | cons w words ih =>
    have hhalves : positionHalves (w :: words) span =
        opening w.text (span w) :: closing (span w) :: positionHalves words span := rfl
    have hline : positionLine (w :: words) span = [' '].intercalate
        ((position w.text (span w)).toList
          :: words.map fun w => (position w.text (span w)).toList) := rfl
    rw [hhalves, hline, List.intercalate_cons_cons, position_eq_halves]
    rcases words with _ | ⟨next, words⟩
    · have hnone : positionHalves [] span = [] := rfl
      rw [hnone, List.map_nil, List.intercalate_singleton, List.intercalate_singleton]
    · have hne : positionHalves (next :: words) span ≠ [] := List.cons_ne_nil _ _
      rw [List.intercalate_cons_of_ne_nil hne, ← ih, List.map_cons, List.intercalate_cons_cons]
      simp only [List.append_assoc]
      rfl

theorem blank_not_mem_positionHalves (h : ∀ w ∈ words, w.Unbroken) :
    ∀ half ∈ positionHalves words span, ' ' ∉ half := by
  intro half hhalf
  obtain ⟨w, hw, hhalf⟩ := List.mem_flatMap.mp hhalf
  rcases List.mem_pair.mp hhalf with rfl | rfl
  · exact blank_not_mem_opening (h w hw) (span w)
  · exact blank_not_mem_closing (span w)

theorem eq_of_positionHalves_eq (h : positionHalves words span = positionHalves words' span) :
    words.map (fun w => (w.text, span w)) = words'.map fun w => (w.text, span w) := by
  induction words generalizing words' with
  | nil =>
    cases words' with
    | nil => rfl
    | cons w' words' => cases h
  | cons w words ih =>
    cases words' with
    | nil => cases h
    | cons w' words' =>
      obtain ⟨hopening, h⟩ := List.cons_eq_cons.mp h
      obtain ⟨hclosing, hrest⟩ := List.cons_eq_cons.mp h
      obtain ⟨htext, hstart⟩ := eq_of_opening_eq hopening
      have hspan : span w = span w' := Span.mk.injEq .. ▸ ⟨hstart, eq_of_closing_eq hclosing⟩
      rw [List.map_cons, List.map_cons, ih hrest, htext, hspan]

theorem positionLine_eq_nil_iff : positionLine words span = [] ↔ words = [] := by
  constructor
  · intro h
    cases words with
    | nil => rfl
    | cons w words =>
      have hparen : '(' ∈ positionLine (w :: words) span :=
        Text.mem_intercalate_of_mem_head (paren_mem_position w.text (span w))
      rw [h] at hparen
      cases hparen
  · rintro rfl
    rfl

theorem eq_of_positionLine_eq (h : ∀ w ∈ words, w.Unbroken) (h' : ∀ w ∈ words', w.Unbroken)
    (heq : positionLine words span = positionLine words' span) :
    words.map (fun w => (w.text, span w)) = words'.map fun w => (w.text, span w) := by
  by_cases hnil : words = []
  · subst hnil
    rw [positionLine_eq_nil_iff.mp heq.symm]
  · have hnil' : words' ≠ [] := by
      rintro rfl
      exact hnil (positionLine_eq_nil_iff.mp heq)
    rw [positionLine_eq_halves, positionLine_eq_halves] at heq
    have hhalves {ws : List PlacedWord} (hne : ws ≠ []) : positionHalves ws span ≠ [] := by
      obtain ⟨w, ws, rfl⟩ := List.exists_cons_of_ne_nil hne
      exact List.cons_ne_nil _ _
    exact eq_of_positionHalves_eq (Text.eq_of_intercalate_eq (blank_not_mem_positionHalves h)
      (blank_not_mem_positionHalves h') (hhalves hnil) (hhalves hnil') heq)

/-! ### Both lines -/

theorem eq_of_map_spans_eq
    (hchars : words.map (fun w => (w.text, w.chars)) = words'.map fun w => (w.text, w.chars))
    (hbytes : words.map (fun w => (w.text, w.bytes)) = words'.map fun w => (w.text, w.bytes)) :
    words = words' := by
  induction words generalizing words' with
  | nil => exact (List.map_eq_nil_iff.mp hchars.symm).symm
  | cons w words ih =>
    cases words' with
    | nil => cases hchars
    | cons w' words' =>
      obtain ⟨hwordChars, hchars⟩ := List.cons_eq_cons.mp hchars
      obtain ⟨hwordBytes, hbytes⟩ := List.cons_eq_cons.mp hbytes
      obtain ⟨htext, hspan⟩ := Prod.mk.inj hwordChars
      have hword : w = w' := PlacedWord.mk.injEq .. ▸ ⟨htext, hspan, (Prod.mk.inj hwordBytes).2⟩
      rw [hword, ih hchars hbytes]

theorem positionText_inj (h : ∀ w ∈ words, w.Unbroken) (h' : ∀ w ∈ words', w.Unbroken) :
    positionText words = positionText words' ↔ words = words' := by
  refine ⟨fun heq => ?_, congrArg positionText⟩
  have hlines (ws : List PlacedWord) : (positionText ws).toList =
      positionLine ws (·.chars) ++ '\n' :: positionLine ws (·.bytes) ++ ['\n'] := by
    simp [positionText_eq]
  have htexts := congrArg String.toList heq
  rw [hlines, hlines] at htexts
  -- The line feed between the lines is the first one, since no word has any.
  have hfeed (span : PlacedWord → Span) : '\n' ∉ positionLine words' span :=
    lineFeed_not_mem_positionLine (fun w hw => (h' w hw).2) span
  obtain ⟨hchars, -, hbytes⟩ := (List.append_cons_inj_of_notMem (hfeed _) (hfeed _)).mp
    (List.append_cancel_right htexts).symm
  exact eq_of_map_spans_eq (eq_of_positionLine_eq h h' hchars.symm)
    (eq_of_positionLine_eq h h' hbytes.symm)

/-! ### Linkages -/

/-- Among linkages whose words have no blank and no line feed, the positions say the words and their
spans; and without a guess mark a check passes just on a linkage that has them all. -/
theorem Linkage.positions_identify {α β : Type} [Linkage α] [Linkage β] (recorded : β)
    (h : ∀ w ∈ Linkage.words recorded, w.Unbroken) :
    (∀ x : α, (∀ w ∈ Linkage.words x, w.Unbroken) →
      (Linkage.positions x = Linkage.positions recorded
        ↔ Linkage.words x = Linkage.words recorded)) ∧
    (Comparison.isMarked (Linkage.positions recorded) = false → ∀ c : Cursor α,
      (∀ x ∈ c.current, ∀ w ∈ Linkage.words x, w.Unbroken) →
      ((Comparison.checkPositions c (Linkage.positions recorded)).1 = .ok ()
        ↔ ∃ x ∈ c.current, Linkage.words x = Linkage.words recorded)) := by
  have hwords (x : α) (hx : ∀ w ∈ Linkage.words x, w.Unbroken) :
      Linkage.positions x = Linkage.positions recorded
        ↔ Linkage.words x = Linkage.words recorded := positionText_inj hx h
  refine ⟨hwords, fun hmark c hc => ?_⟩
  cases hcurrent : c.current with
  | none =>
    rw [Comparison.checkPositions_of_none _ hcurrent]
    simp
  | some x =>
    have hx : c.ahead.head? = some x := c.head?_ahead.trans hcurrent
    rw [(Comparison.checkPositions_plain hx hmark).1, hwords x (hc x hcurrent)]
    simp

theorem Linkage.positions_identify_parentheses :
    let linkage (stop : Nat) : RecordedLinkage :=
      ⟨[⟨"f(0,", ⟨0, stop⟩, ⟨0, 4⟩⟩, ⟨"", ⟨5, 5⟩, ⟨5, 5⟩⟩], .ofWords [], "", .zero, false⟩
    let expected := Linkage.positions (linkage 4)
    (∀ stop, ∀ w ∈ Linkage.words (linkage stop), w.Unbroken) ∧
      Comparison.isMarked expected = false ∧
      Linkage.positions (linkage 40) ≠ expected ∧
      ∀ sequence, (Comparison.checkPositions
        ⟨some ⟨sequence, some (linkage 4), 0⟩, 0⟩ expected).1 = .ok () := by
  intro linkage expected
  have hwords (stop : Nat) : ∀ w ∈ Linkage.words (linkage stop), w.Unbroken := by
    have hopened : ' ' ∉ "f(0,".toList ∧ '\n' ∉ "f(0,".toList := by decide
    have hempty : ' ' ∉ "".toList ∧ '\n' ∉ "".toList := by decide
    exact List.forall_mem_cons.mpr ⟨hopened, List.forall_mem_singleton.mpr hempty⟩
  have hmark : Comparison.isMarked expected = false := by decide +kernel
  obtain ⟨hpositions, hcheck⟩ :=
    Linkage.positions_identify (α := RecordedLinkage) (linkage 4) (hwords 4)
  refine ⟨hwords, hmark, ?_, fun sequence => ?_⟩
  · rw [ne_eq, hpositions _ (hwords 40)]
    decide +kernel
  · refine (hcheck hmark _ ?_).mpr ⟨linkage 4, rfl, rfl⟩
    rintro x ⟨⟩
    exact hwords 4

end LinkageCheck
