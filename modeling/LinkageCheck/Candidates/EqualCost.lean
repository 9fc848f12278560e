import LinkageCheck.Dictionary

/-! Linkages in an order that does not depend on how an engine breaks ties: a run of neighbours
with the same metrics is handed out sorted by diagram. Only the current run is held, with the
one linkage behind it that ended it. -/

namespace LinkageCheck

variable {α : Type} [Linkage α]

def diagramAtMost (a b : α) : Bool := decide (Linkage.diagram a ≤ Linkage.diagram b)

def sortByDiagram (run : List α) : List α := run.mergeSort diagramAtMost

structure EqualCost (α : Type) where
  source : Candidates α
  held : Option α
  run : List α
  deriving Repr

/-- The rest of a run: its linkages, the linkage behind it, and what is left of the source. -/
structure RunEnd (α : Type) where
  run : List α
  held : Option α
  source : Candidates α
  deriving Repr

/-- Pulls while the metrics tie, and once more to see the end of the run. -/
def RunEnd.find (metrics : Metrics) : List (Option α) → Nat → RunEnd α
  | [], pulls => ⟨[], none, ⟨[], pulls + 1⟩⟩
  | none :: answers, pulls => ⟨[], none, ⟨answers, pulls + 1⟩⟩
  | some a :: answers, pulls =>
    if (Linkage.metrics a).ties metrics then
      let later := find metrics answers (pulls + 1)
      { later with run := a :: later.run }
    else ⟨[], some a, ⟨answers, pulls + 1⟩⟩

namespace EqualCost

def ofCandidates (source : Candidates α) : EqualCost α := ⟨source, none, []⟩

def ofFirst (first : α) (source : Candidates α) : EqualCost α :=
  let later := RunEnd.find (Linkage.metrics first) source.answers source.pulls
  ⟨later.source, later.held, sortByDiagram (first :: later.run)⟩

def fill (s : EqualCost α) : EqualCost α :=
  match s.held with
  | some first => ofFirst first s.source
  | none =>
    match s.source.pull with
    | (some first, source) => ofFirst first source
    | (none, source) => { s with source }

def next (s : EqualCost α) : Option α × EqualCost α :=
  let s := if s.run.isEmpty then s.fill else s
  (s.run.head?, { s with run := s.run.tail })

def remaining (s : EqualCost α) : Nat :=
  s.run.length + s.held.toList.length + s.source.answers.length

end EqualCost

theorem RunEnd.length_find (metrics : Metrics) (answers : List (Option α)) (pulls : Nat) :
    (find metrics answers pulls).run.length + (find metrics answers pulls).held.toList.length
      + (find metrics answers pulls).source.answers.length ≤ answers.length := by
  induction answers generalizing pulls with
  | nil => simp [find]
  | cons answer answers ih =>
    cases answer with
    | none => simp [find]
    | some a =>
      have := ih (pulls + 1)
      by_cases h : (Linkage.metrics a).ties metrics <;> simp [find, h] <;> omega

namespace EqualCost

theorem remaining_ofFirst (first : α) (source : Candidates α) :
    (ofFirst first source).remaining ≤ source.answers.length + 1 := by
  have := RunEnd.length_find (Linkage.metrics first) source.answers source.pulls
  simp [remaining, ofFirst, sortByDiagram]
  omega

theorem remaining_fill (s : EqualCost α) (h : s.run = []) : s.fill.remaining ≤ s.remaining := by
  rcases s with ⟨⟨answers, pulls⟩, held, run⟩
  cases held with
  | some first =>
    have := remaining_ofFirst first ⟨answers, pulls⟩
    simp_all [fill, remaining]
    omega
  | none =>
    rcases answers with _ | ⟨_ | first, answers⟩
    · simp [fill, Candidates.pull, remaining]
    · simp [fill, Candidates.pull, remaining]
    · have := remaining_ofFirst first ⟨answers, pulls + 1⟩
      simp_all [fill, Candidates.pull, remaining]

theorem remaining_next {s : EqualCost α} {a : α} (h : s.next.1 = some a) :
    s.next.2.remaining < s.remaining := by
  have drop : ∀ t : EqualCost α, t.run.head? = some a →
      ({ t with run := t.run.tail } : EqualCost α).remaining < t.remaining := by
    rintro ⟨source, held, _ | ⟨b, run⟩⟩ h <;> simp_all [remaining]
  by_cases hr : s.run = []
  · simp only [next, hr, List.isEmpty_nil, if_true] at h ⊢
    exact Nat.lt_of_lt_of_le (drop _ h) (remaining_fill s hr)
  · have : s.run.isEmpty = false := by simpa using hr
    simp only [next, this, Bool.false_eq_true, if_false] at h ⊢
    exact drop s h

end EqualCost

end LinkageCheck
