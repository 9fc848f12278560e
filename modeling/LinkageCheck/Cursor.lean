import LinkageCheck.Candidates.EqualCost
import LinkageCheck.Dictionary

/-! A cursor over the candidate linkages of the current sentence. It pulls one linkage when a
sentence starts and one when it advances from a linkage. -/

namespace LinkageCheck

/-- The order in which candidates are seen: as the engine brings them, or tied ones sorted by
diagram. -/
inductive CandidateOrder where
  | engine | equalCost
  deriving DecidableEq, Repr

inductive CandidateSequence (α : Type) where
  | engine (source : Candidates α)
  | equalCost (source : EqualCost α)

variable {α : Type} [Linkage α]

namespace CandidateSequence

def ofCandidates (source : Candidates α) : CandidateOrder → CandidateSequence α
  | .engine => engine source
  | .equalCost => equalCost (.ofCandidates source)

def next : CandidateSequence α → Option α × CandidateSequence α
  | engine source => (source.pull.1, engine source.pull.2)
  | equalCost source => (source.next.1, equalCost source.next.2)

def pulls : CandidateSequence α → Nat
  | engine source => source.pulls
  | equalCost source => source.source.pulls

def remaining : CandidateSequence α → Nat
  | engine source => source.answers.length
  | equalCost source => source.remaining

end CandidateSequence

/-- Where the cursor stands in the sequence of a sentence; without a current linkage the
sequence has run dry. `index` counts the linkages passed. -/
structure Standing (α : Type) where
  sequence : CandidateSequence α
  current : Option α
  index : Nat

/-- `earlierPulls` counts what was pulled for earlier sentences. -/
structure Cursor (α : Type) where
  standing : Option (Standing α)
  earlierPulls : Nat

namespace Cursor

def idle : Cursor α := ⟨none, 0⟩

def current (c : Cursor α) : Option α := c.standing.bind (·.current)

def isStarted (c : Cursor α) : Bool := c.standing.isSome

def ordinal (c : Cursor α) : Nat := c.standing.elim 0 (·.index + 1)

def pulls (c : Cursor α) : Nat :=
  c.earlierPulls + c.standing.elim 0 (·.sequence.pulls)

def remaining (c : Cursor α) : Nat := c.standing.elim 0 (·.sequence.remaining)

/-- Leaves the earlier sentence and points at the first linkage of this one. A sentence that the
engine refuses leaves the cursor idle. -/
def start (c : Cursor α) (dictionary : Dictionary α) (sentence : String) (o : Options)
    (order : CandidateOrder) : Except EngineError Unit × Cursor α :=
  match dictionary.parse sentence o with
  | .error e => (.error e, ⟨none, c.pulls⟩)
  | .ok candidates =>
    let (first, sequence) := (CandidateSequence.ofCandidates candidates order).next
    (.ok (), ⟨some ⟨sequence, first, 0⟩, c.pulls⟩)

/-- Moves to the next linkage; once there is none, nothing is pulled any more. -/
def advance (c : Cursor α) : Cursor α :=
  match c.standing with
  | some ⟨sequence, some _, index⟩ =>
    let (next, sequence) := sequence.next
    { c with standing := some ⟨sequence, next, index + 1⟩ }
  | _ => c

end Cursor

theorem CandidateSequence.remaining_next {s : CandidateSequence α} {a : α}
    (h : s.next.1 = some a) : s.next.2.remaining < s.remaining := by
  cases s with
  | engine source =>
    rcases source with ⟨_ | ⟨answer, answers⟩, pulls⟩
    · simp [next, Candidates.pull] at h
    · simp [next, Candidates.pull, remaining]
  | equalCost source => exact EqualCost.remaining_next h

theorem Cursor.remaining_advance {c : Cursor α} {a b : α} (hc : c.current = some a)
    (h : c.advance.current = some b) : c.advance.remaining < c.remaining := by
  rcases c with ⟨_ | ⟨sequence, _ | x, index⟩, earlier⟩
  · simp [current] at hc
  · simp [current] at hc
  · exact CandidateSequence.remaining_next (a := b) (by simpa [advance, current] using h)

end LinkageCheck
