import LinkageCheck.Linkage.Basic

/-! A corpus: the sentences of one language with the linkages that were recorded for them. -/

namespace LinkageCheck

namespace Corpus

structure Linkage where
  words : List String
  /-- The characters of each word; derived from the sentence when absent. -/
  spans : Option (List Span)
  links : List (Nat × Nat × String)
  constituents : String
  metrics : Metrics
  spellGuess : Bool
  deriving DecidableEq

/-- Linkages stand in the order in which the engine found them. -/
structure Sentence where
  text : String
  linkages : List Linkage
  deriving DecidableEq

end Corpus

structure Corpus where
  lang : String
  spellGuess : Bool
  sentences : List Corpus.Sentence
  deriving DecidableEq

def Corpus.linkageCount (c : Corpus) : Nat :=
  c.sentences.foldl (fun n s => n + s.linkages.length) 0

end LinkageCheck
