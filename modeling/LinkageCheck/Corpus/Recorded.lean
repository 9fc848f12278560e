import LinkageCheck.Alignment
import LinkageCheck.Corpus.Basic
import LinkageCheck.Diagram.Drawing
import LinkageCheck.Dictionary

/-! A dictionary that serves recorded linkages. Words are placed and links checked when the
dictionary is made, so that a recorded sentence is always answered. -/

namespace LinkageCheck

namespace Corpus

/-- The first defect of a corpus. Linkages are numbered from zero. -/
inductive Defect where
  | duplicate (sentence : String)
  | diagram (sentence : String) (linkage : Nat) (error : InvalidLink)
  | alignment (sentence : String) (linkage : Nat) (error : Alignment.Error)
  deriving DecidableEq, Repr

def Defect.message : Defect → String
  | duplicate sentence => "sentence " ++ Text.quoted sentence ++ " is recorded more than once"
  | diagram sentence linkage error =>
    "sentence " ++ Text.quoted sentence ++ s!", linkage {linkage}: " ++ error.message
  | alignment sentence linkage error =>
    "sentence " ++ Text.quoted sentence ++ s!", linkage {linkage}: " ++ error.message

end Corpus

structure RecordedLinkage where
  words : List PlacedWord
  diagram : Diagram
  constituents : String
  metrics : Metrics
  spellGuess : Bool

namespace RecordedLinkage

instance : Linkage RecordedLinkage where
  words := words
  diagram l := l.diagram.render
  constituents l := Text.trimmedEnd l.constituents ++ "\n"
  metrics := metrics

def prepare (text : String) (number : Nat) (l : Corpus.Linkage) :
    Except Corpus.Defect RecordedLinkage := do
  let placed := match l.spans with
    | some spans => Alignment.explicit text l.words spans
    | none => Alignment.align text l.words
  let words ← placed.mapError (.alignment text number)
  let links := l.links.map fun (left, right, label) => ⟨left, right, label⟩
  let diagram ← ((Diagram.ofWords l.words).addLinks links).mapError (.diagram text number)
  return ⟨words, diagram, l.constituents, l.metrics, l.spellGuess⟩

def prepareAll (text : String) : Nat → List Corpus.Linkage →
    Except Corpus.Defect (List RecordedLinkage)
  | _, [] => .ok []
  | number, l :: ls => do
    let linkage ← prepare text number l
    return linkage :: (← prepareAll text (number + 1) ls)

end RecordedLinkage

/-- The linkages recorded for a sentence, on their way out: the place of the next to look at, how
many may still be handed out, and what options let through. -/
structure RecordedCandidates where
  recorded : List RecordedLinkage
  place : Nat
  remaining : Nat
  guesses : Bool
  minNullCount : Nat
  maxNullCount : Nat

namespace RecordedCandidates

/-- A spelling guess has to be allowed, and the number of words without a link lies between the two
limits. -/
def admits (c : RecordedCandidates) (l : RecordedLinkage) : Bool :=
  let nulls := l.metrics.unusedWordCost.toNat
  (!l.spellGuess || c.guesses) && c.minNullCount ≤ nulls && nulls ≤ c.maxNullCount

def seek (c : RecordedCandidates) : List RecordedLinkage →
    Option RecordedLinkage × RecordedCandidates
  | [] => (none, c)
  | l :: ls =>
    let later := { c with place := c.place + 1 }
    if c.admits l then (some l, { later with remaining := c.remaining - 1 }) else later.seek ls

def next (c : RecordedCandidates) : Option RecordedLinkage × RecordedCandidates :=
  if c.remaining = 0 then (none, c) else c.seek (c.recorded.drop c.place)

/-- What so many steps hand out, up to the first that comes back empty. -/
def answersUpTo : Nat → RecordedCandidates → List RecordedLinkage
  | 0, _ => []
  | n + 1, c =>
    match c.next with
    | (none, _) => []
    | (some l, later) => l :: answersUpTo n later

def answers (c : RecordedCandidates) : List RecordedLinkage := answersUpTo c.remaining c

end RecordedCandidates

structure RecordedSentence where
  text : String
  linkages : List RecordedLinkage

/-- The sentences of a sound corpus, no two with the same text. -/
structure RecordedDictionary where
  lang : String
  spellGuess : Bool
  sentences : List RecordedSentence

namespace RecordedDictionary

def find? (sentences : List RecordedSentence) (text : String) : Option RecordedSentence :=
  sentences.find? (·.text == text)

/-- Adds sentences in order; a repeated text is found after the linkages under it were checked. -/
def addSentences (known : List RecordedSentence) : List Corpus.Sentence →
    Except Corpus.Defect (List RecordedSentence)
  | [] => .ok known
  | s :: ss => do
    let linkages ← RecordedLinkage.prepareAll s.text 0 s.linkages
    if (find? known s.text).isSome then .error (.duplicate s.text)
    else addSentences (known ++ [⟨s.text, linkages⟩]) ss

def ofCorpus (c : Corpus) : Except Corpus.Defect RecordedDictionary := do
  return ⟨c.lang, c.spellGuess, ← addSentences [] c.sentences⟩

def contains (d : RecordedDictionary) (text : String) : Bool := (find? d.sentences text).isSome

def size (d : RecordedDictionary) : Nat := d.sentences.length

def candidates (d : RecordedDictionary) (s : RecordedSentence) (o : Options) :
    RecordedCandidates where
  recorded := s.linkages
  place := 0
  remaining := o.linkageLimit
  guesses := d.spellGuess && 0 < o.spellGuess
  minNullCount := o.minNullCount
  maxNullCount := o.maxNullCount

def parse (d : RecordedDictionary) (text : String) (o : Options) :
    Except EngineError (Candidates RecordedLinkage) :=
  match find? d.sentences text with
  | none => .error (.unknownSentence d.lang text)
  | some s => .ok (.ofList (d.candidates s o).answers)

def toDictionary (d : RecordedDictionary) : Dictionary RecordedLinkage where
  lang := d.lang
  hasSpellGuess := d.spellGuess
  parse := d.parse

end RecordedDictionary

end LinkageCheck
