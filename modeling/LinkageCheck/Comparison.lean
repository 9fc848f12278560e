import LinkageCheck.Cursor
import LinkageCheck.Record.Section

/-! Comparing a linkage with the text that a section expects. Positions that mark a spelling
guess are looked for among all further candidates, since guesses of one rank come in no fixed
order. -/

namespace LinkageCheck

inductive Mismatch where
  | different (kind : SectionKind) (expected actual : String)
  | noLinkage (kind : SectionKind)
  | unexpectedLinkage
  | tooFewLinkages
  | noMatch (expected : String) (tried : Nat)
  deriving DecidableEq, Repr

def Mismatch.message : Mismatch → String
  | different kind _ _ => s!"{kind.name} mismatch"
  | noLinkage _ => "Sentence has no linkages"
  | unexpectedLinkage => "Sentence has a linkage where none was expected"
  | tooFewLinkages => "Sentence has too few linkages"
  | noMatch _ tried =>
    s!"no candidate linkage matched the expected word positions ({tried} tried)"

namespace Comparison

def isMarked (expected : String) : Bool := expected.toList.any fun c => c == '~' || c == '&'

def compare (kind : SectionKind) (expected actual : String) : Except Mismatch Unit :=
  if actual = expected then .ok () else .error (.different kind expected actual)

variable {α : Type} [Linkage α]

def checkNone (current : Option α) : Except Mismatch Unit :=
  if current.isSome then .error .unexpectedLinkage else .ok ()

def checkDiagram (current : Option α) (expected : String) : Except Mismatch Unit :=
  match current with
  | none => .error (.noLinkage .diagram)
  | some linkage => compare .diagram expected (Linkage.diagram linkage)

def checkConstituents (current : Option α) (expected : String) : Except Mismatch Unit :=
  match current with
  | none => .error (.noLinkage .constituents)
  | some linkage => compare .constituents expected (Linkage.constituents linkage)

/-- Advances from `current` until a linkage has the expected positions; `tried` counts the
linkages looked at before. -/
def search (expected : String) (tried : Nat) (c : Cursor α) (current : α)
    (_ : c.current = some current) : Except Mismatch Unit × Cursor α :=
  match h : c.advance.current with
  | none => (.error (.noMatch expected tried), c.advance)
  | some linkage =>
    if Linkage.positions linkage = expected then (.ok (), c.advance)
    else search expected (tried + 1) c.advance linkage h
termination_by c.remaining
decreasing_by exact Cursor.remaining_advance ‹_› h

def checkPositions (c : Cursor α) (expected : String) : Except Mismatch Unit × Cursor α :=
  match h : c.current with
  | none => (.error (.noLinkage .wordPositions), c)
  | some linkage =>
    let actual := Linkage.positions linkage
    if actual = expected ∨ !isMarked expected then (compare .wordPositions expected actual, c)
    else search expected 1 c linkage h

end Comparison

end LinkageCheck
