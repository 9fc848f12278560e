import LinkageCheck.Corpus.Reader
import LinkageCheck.Corpus.Recorded

/-! The corpora of a data directory, one language in each of its directories. -/

namespace LinkageCheck

namespace Corpus

inductive Error where
  | unreadable (path : String) (fault : FileFault)
  | malformed (path : String)
  | lang (path expected found : String)
  | defect (defect : Defect)
  deriving DecidableEq, Repr

def Error.message : Error → String
  | unreadable path fault => s!"failed to read corpus {path}: {fault.message}"
  | malformed path => s!"failed to parse corpus {path}: not a corpus"
  | lang path expected found =>
    s!"corpus {path} records language `{found}`, expected `{expected}`"
  | defect d => d.message

def pathFor (directory lang : String) : String :=
  Path.join (Path.join directory lang) "linkages.ron"

def load (t : FileTree) (path : String) : Except Error Corpus :=
  match t.readText path with
  | .error fault => .error (.unreadable path fault)
  | .ok text =>
    match parse? text with
    | some c => .ok c
    | none => .error (.malformed path)

end Corpus

def RecordedDictionary.open? (t : FileTree) (directory lang : String) :
    Except Corpus.Error RecordedDictionary := do
  let path := Corpus.pathFor directory lang
  let c ← Corpus.load t path
  if c.lang ≠ lang then throw (.lang path lang c.lang)
  (ofCorpus c).mapError .defect

end LinkageCheck
