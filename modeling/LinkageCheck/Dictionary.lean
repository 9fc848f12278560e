import LinkageCheck.Linkage.Basic
import LinkageCheck.Options.Basic

/-! A dictionary of one language: it answers a sentence with the sequence of linkages that an engine
offers for it, pulled one at a time. -/

namespace LinkageCheck

/-- `answers` is what the coming pulls bring; an empty answer may be followed by further
linkages, and after the last answer every pull comes back empty. `pulls` counts the pulls made
so far. -/
structure Candidates (α : Type) where
  answers : List (Option α)
  pulls : Nat
  deriving Repr

namespace Candidates

variable {α : Type}

def ofList (linkages : List α) : Candidates α := ⟨linkages.map some, 0⟩

def pull (c : Candidates α) : Option α × Candidates α :=
  (c.answers.head?.join, ⟨c.answers.tail, c.pulls + 1⟩)

def upToEmpty : List (Option α) → List α
  | some a :: answers => a :: upToEmpty answers
  | _ => []

def toList (c : Candidates α) : List α := upToEmpty c.answers

end Candidates

inductive EngineError where
  | unknownSentence (lang sentence : String)
  | other (message : String)
  deriving DecidableEq, Repr

def EngineError.message : EngineError → String
  | unknownSentence lang sentence =>
    s!"no linkages available for {lang} sentence " ++ Text.quoted sentence
  | other message => message

structure Dictionary (α : Type) where
  lang : String
  hasSpellGuess : Bool
  parse : String → Options → Except EngineError (Candidates α)

end LinkageCheck
