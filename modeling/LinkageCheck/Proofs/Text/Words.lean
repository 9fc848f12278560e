import LinkageCheck.Text.Words

/-! The segments between the word boundaries of a text: none is empty, and one after another they
are the text. -/

namespace LinkageCheck.Text

/-- Consecutive segments that make up a text, none of them empty. -/
structure Cuts (segments : List (List Char)) (cs : List Char) : Prop where
  flatten : segments.flatten = cs
  nonempty : ∀ segment ∈ segments, segment ≠ []

namespace WordContext

theorem segments_spec (before : WordContext) (cs : List Char) :
    (before.segments cs).1 ++ (before.segments cs).2.flatten = cs
      ∧ ∀ segment ∈ (before.segments cs).2, segment ≠ [] := by
  induction cs generalizing before with
  | nil => exact ⟨rfl, fun segment h => absurd h List.not_mem_nil⟩
  | cons c cs ih =>
    obtain ⟨hflatten, hnonempty⟩ := ih (before.push (.after before.last c))
    rw [segments]
    split
    · exact ⟨congrArg (c :: ·) hflatten, hnonempty⟩
    · refine ⟨?_, List.forall_mem_cons.mpr ⟨List.cons_ne_nil _ _, hnonempty⟩⟩
      rw [List.nil_append, List.flatten_cons, List.cons_append, hflatten]

theorem joins_start (c : Char) (after : List Char) : start.joins c after = false := rfl

theorem segments_start (cs : List Char) : (start.segments cs).1 = [] := by
  cases cs with
  | nil => rfl
  | cons c cs =>
    rw [segments, joins_start]
    rfl

end WordContext

theorem cuts_wordSegments (cs : List Char) : Cuts (wordSegments cs) cs := by
  obtain ⟨hflatten, hnonempty⟩ := WordContext.start.segments_spec cs
  rw [WordContext.segments_start, List.nil_append] at hflatten
  exact ⟨hflatten, hnonempty⟩

end LinkageCheck.Text
