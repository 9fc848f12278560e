import LinkageCheck.Corpus.Basic
import LinkageCheck.Files.Tree
import LinkageCheck.Ron.Value

/-! Corpora written in RON, and the files they are kept in. -/

namespace LinkageCheck.Corpus

open Text (Reader)

def once {σ α : Type} (get : σ → Option α) (set : σ → α → σ) (value : Reader α) :
    Option (σ → Reader σ) :=
  some fun s => do
    guard (get s).isNone
    return set s (← value)

def natPair : Reader (Nat × Nat) :=
  Ron.tuple do
    let a ← Ron.unsigned
    let b ← Ron.nextItem Ron.unsigned
    return (a, b)

def readSpan : Reader Span := do
  let (start, stop) ← natPair
  return ⟨start, stop⟩

def readLink : Reader (Nat × Nat × String) :=
  Ron.tuple do
    let left ← Ron.unsigned
    let right ← Ron.nextItem Ron.unsigned
    let label ← Ron.nextItem Ron.string
    return (left, right, label)

/-! Each structure is read into the fields that were given, and then completed with the standard
values of the others. Values passed over may nest to 128 levels counted from the top of the
text. -/

structure MetricsFields where
  unusedWordCost : Option Int
  disjunctCost : Option Decimal.Binary64
  linkCost : Option Int

def readMetrics (e : Ron.Extensions) : Reader Metrics := do
  let field : String → Option (MetricsFields → Reader MetricsFields)
    | "unused_word_cost" => once (·.unusedWordCost) (fun s x => { s with unusedWordCost := x })
        (Ron.signed 32)
    | "disjunct_cost" => once (·.disjunctCost) (fun s x => { s with disjunctCost := x }) Ron.float
    | "link_cost" => once (·.linkCost) (fun s x => { s with linkCost := x }) (Ron.signed 32)
    | _ => none
  let s ← Ron.record e 116 "LinkageMetrics" field ⟨none, none, none⟩
  return ⟨s.unusedWordCost.getD 0, s.disjunctCost.getD .zero, s.linkCost.getD 0⟩

structure LinkageFields where
  words : Option (List String)
  spans : Option (Option (List Span))
  links : Option (List (Nat × Nat × String))
  constituents : Option String
  metrics : Option Metrics
  spellGuess : Option Bool

def readLinkage (e : Ron.Extensions) : Reader Linkage := do
  let field : String → Option (LinkageFields → Reader LinkageFields)
    | "words" => once (·.words) (fun s x => { s with words := x }) (Ron.list Ron.string)
    | "spans" => once (·.spans) (fun s x => { s with spans := some x })
        (Ron.option e (Ron.list readSpan))
    | "links" => once (·.links) (fun s x => { s with links := x }) (Ron.list readLink)
    | "constituents" => once (·.constituents) (fun s x => { s with constituents := x }) Ron.string
    | "metrics" => once (·.metrics) (fun s x => { s with metrics := x }) (readMetrics e)
    | "spell_guess" => once (·.spellGuess) (fun s x => { s with spellGuess := x }) Ron.boolean
    | _ => none
  let s ← Ron.record e 118 "RecordedLinkage" field ⟨none, none, none, none, none, none⟩
  return {
    words := ← s.words
    spans := s.spans.join
    links := s.links.getD []
    constituents := s.constituents.getD ""
    metrics := s.metrics.getD .zero
    spellGuess := s.spellGuess.getD false }

structure SentenceFields where
  text : Option String
  linkages : Option (List Linkage)

def readSentence (e : Ron.Extensions) : Reader Sentence := do
  let field : String → Option (SentenceFields → Reader SentenceFields)
    | "text" => once (·.text) (fun s x => { s with text := x }) Ron.string
    | "linkages" => once (·.linkages) (fun s x => { s with linkages := x })
        (Ron.list (readLinkage e))
    | _ => none
  let s ← Ron.record e 122 "RecordedSentence" field ⟨none, none⟩
  return ⟨← s.text, s.linkages.getD []⟩

structure CorpusFields where
  lang : Option String
  spellGuess : Option Bool
  sentences : Option (List Sentence)

def readCorpus (e : Ron.Extensions) : Reader Corpus := do
  let field : String → Option (CorpusFields → Reader CorpusFields)
    | "lang" => once (·.lang) (fun s x => { s with lang := x }) Ron.string
    | "spell_guess" => once (·.spellGuess) (fun s x => { s with spellGuess := x }) Ron.boolean
    | "sentences" => once (·.sentences) (fun s x => { s with sentences := x })
        (Ron.list (readSentence e))
    | _ => none
  let s ← Ron.record e 126 "Corpus" field ⟨none, none, none⟩
  return ⟨← s.lang, s.spellGuess.getD true, s.sentences.getD []⟩

def parse? (text : String) : Option Corpus := Ron.parse? readCorpus text

end LinkageCheck.Corpus
