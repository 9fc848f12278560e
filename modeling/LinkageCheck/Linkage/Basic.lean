import LinkageCheck.Decimal.Binary64

/-! What an engine says about a sentence: words with their places, costs, and two renderings. -/

namespace LinkageCheck

open Decimal (Binary64)

def leftWall : String := "LEFT-WALL"

def rightWall : String := "RIGHT-WALL"

structure Span where
  start : Nat
  stop : Nat
  deriving DecidableEq, Repr

/-- A word of a linkage, with the characters and the bytes of the sentence that it stands for. -/
structure PlacedWord where
  text : String
  chars : Span
  bytes : Span
  deriving DecidableEq, Repr

structure Metrics where
  unusedWordCost : Int
  disjunctCost : Binary64
  linkCost : Int
  deriving DecidableEq

namespace Metrics

def zero : Metrics := ⟨0, .zero, 0⟩

/-- Whether two linkages cost the same. A cost that is no number ties with nothing. -/
def ties (a b : Metrics) : Bool :=
  a.unusedWordCost == b.unusedWordCost && a.disjunctCost.equals b.disjunctCost
    && a.linkCost == b.linkCost

end Metrics

/-- One candidate analysis of a sentence. -/
class Linkage (α : Type) where
  words : α → List PlacedWord
  /-- The link diagram with the blank lines around it. -/
  diagram : α → String
  /-- The constituent tree, with a line feed at its end. -/
  constituents : α → String
  metrics : α → Metrics

def PlacedWord.position (word : String) (span : Span) : String :=
  s!"{word}({span.start}, {span.stop})"

/-- Two lines: the words with their character spans, then the words with their byte spans. -/
def positionText (words : List PlacedWord) : String :=
  " ".intercalate (words.map fun w => PlacedWord.position w.text w.chars) ++ "\n"
    ++ " ".intercalate (words.map fun w => PlacedWord.position w.text w.bytes) ++ "\n"

def Linkage.positions {α : Type} [Linkage α] (linkage : α) : String :=
  positionText (Linkage.words linkage)

end LinkageCheck
