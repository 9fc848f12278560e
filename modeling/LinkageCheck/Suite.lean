import LinkageCheck.Files.Discovery
import LinkageCheck.Run.Basic
import LinkageCheck.Run.ExpectedFailures
import LinkageCheck.Toml.Decode

/-! Suites: which expected-results files to replay, for which languages and with which options. -/

namespace LinkageCheck

structure Overrides where
  test : Option String
  debug : Option String
  verbosity : Option Int
  deriving DecidableEq, Repr

namespace Overrides

def empty : Overrides := ⟨none, none, none⟩

def apply (v : Overrides) (o : Options) : Options :=
  { o with
    test := v.test.getD o.test
    debug := v.debug.getD o.debug
    verbosity := v.verbosity.getD o.verbosity }

end Overrides

structure Config where
  srcdir : String
  order : CandidateOrder
  stopOnFailure : Bool
  overrides : Overrides
  deriving DecidableEq, Repr

def Config.standard : Config := ⟨".", .equalCost, false, .empty⟩

/-- `options` holds the manifest's values by name; `path` replaces the standard file name. -/
structure SuiteCase where
  lang : String
  desc : Option String
  requiresSpellGuess : Bool
  options : Toml.Entries
  path : Option String

inductive CaseError where
  | notScalar (name typeName : String)
  | option (error : OptionError)
  deriving DecidableEq, Repr

def CaseError.message : CaseError → String
  | notScalar name typeName => s!"option `{name}` must be a scalar, found {typeName}"
  | option error => error.message

namespace SuiteCase

def ofLang (lang : String) : SuiteCase := ⟨lang, none, false, [], none⟩

def resultsName (c : SuiteCase) : ResultsName := ⟨c.lang, c.desc⟩

def name (c : SuiteCase) : String := c.resultsName.text

/-- Whether the case stands for a file with this path below the source directory. -/
def covers (c : SuiteCase) (relative : String) : Bool :=
  Path.components (c.path.getD c.name) == Path.components relative

def file (c : SuiteCase) (srcdir : String) : String :=
  match c.path with
  | some relative => Path.join srcdir relative
  | none => c.resultsName.path srcdir

def scalar? : Toml.Value → Option OptionValue
  | .boolean b => some (.boolean b)
  | .integer i => some (.integer i)
  | .float x => some (.number x)
  | .string s => some (.text s)
  | _ => none

def setOption (o : Options) (entry : String × Toml.Value) : Except CaseError Options :=
  match scalar? entry.2 with
  | some v => (o.setByName entry.1 v).mapError .option
  | none => .error (.notScalar entry.1 entry.2.typeName)

/-- The standard options with those of the case set in the order of their names. -/
def parseOptions (c : SuiteCase) : Except CaseError Options :=
  (c.options.mergeSort fun a b => decide (a.1 ≤ b.1)).foldlM setOption .standard

open Toml (Value) in
def read? (v : Value) : Option SuiteCase := do
  let es ← v.fields? ["lang", "desc", "requires_spell_guess", "options", "path"]
  return {
    lang := ← es.required "lang" Value.string?
    desc := ← es.optional "desc" Value.string?
    requiresSpellGuess := ← es.withDefault "requires_spell_guess" Value.boolean? false
    options := ← es.withDefault "options" Value.anyTable? []
    path := ← es.optional "path" Value.string? }

end SuiteCase

structure Suite where
  cases : List SuiteCase

inductive SuiteError where
  | load (path message : String)
  | malformed (path : String)
  | options (path : String) (caseName : Option String) (error : CaseError)
  | run (error : RunError)
  deriving DecidableEq, Repr

def SuiteError.message : SuiteError → String
  | load path message => s!"failed to load {path}: {message}"
  | malformed path => s!"invalid suite {path}: not a suite manifest"
  | options path (some caseName) error => s!"invalid suite {path}: {caseName}: {error.message}"
  | options path none error => s!"invalid suite {path}: {error.message}"
  | run error => error.message

namespace Suite

def standard : Suite where
  cases := [.ofLang "en",
    { SuiteCase.ofLang "en" with
      desc := some "pos-spell"
      requiresSpellGuess := true
      options := [("spell_guess", .integer 99)] }]

def parse? (text : String) : Option Suite := do
  let es ← Toml.parse? text
  return ⟨← es.withDefault "case" (Toml.Value.list? SuiteCase.read?) []⟩

def firstError? (s : Suite) : Option (SuiteCase × CaseError) :=
  s.cases.findSome? fun c =>
    match c.parseOptions with
    | .ok _ => none
    | .error e => some (c, e)

def load (t : FileTree) (path : String) : Except SuiteError Suite :=
  match t.readText path with
  | .error fault => .error (.load path fault.message)
  | .ok text =>
    match parse? text with
    | none => .error (.malformed path)
    | some s =>
      match s.firstError? with
      | some (c, e) => .error (.options path (some c.name) e)
      | none => .ok s

def caseFor (f : ResultsFile) : SuiteCase :=
  { SuiteCase.ofLang f.name.lang with desc := f.name.desc, path := some f.relative }

def addFile (cases : List SuiteCase) (f : ResultsFile) : List SuiteCase :=
  if cases.any (·.covers f.relative) then cases else cases ++ [caseFor f]

/-- Adds a case for every file below the source directory that none stands for, and counts them. -/
def addDiscovered (s : Suite) (t : FileTree) (srcdir : String) : Suite × Nat :=
  let cases := (t.discover srcdir).foldl addFile s.cases
  (⟨cases⟩, cases.length - s.cases.length)

def retainLang (s : Suite) (lang : String) : Suite := ⟨s.cases.filter (·.lang == lang)⟩

end Suite

inductive CaseOutcome where
  | skipped (name reason : String)
  | ran (report : Report)
  deriving DecidableEq, Repr

namespace Suite

variable {α : Type} [Linkage α]

def skipReason? (c : SuiteCase) (d : Dictionary α) (o : Options) : Option String :=
  if !c.requiresSpellGuess then none
  else if !d.hasSpellGuess then some "dictionary has no spell guesser"
  else if o.spellGuess = 0 then some "spell guessing is disabled"
  else none

def replay (t : FileTree) (config : Config) (d : Dictionary α) (o : Options) (path : String) :
    Except SuiteError Report :=
  match t.read path with
  | .error fault => .error (.run ⟨path, 0, .unreadable fault.message⟩)
  | .ok content =>
    (runBytes d config.order config.stopOnFailure path o content).result.mapError .run

def runCase (t : FileTree) (config : Config)
    (openDictionary : String → Except SuiteError (Dictionary α)) (c : SuiteCase) :
    Except SuiteError CaseOutcome := do
  let o ← c.parseOptions.mapError (.options c.name none)
  let o := config.overrides.apply o
  let d ← openDictionary c.lang
  match skipReason? c d o with
  | some reason => return .skipped c.name reason
  | none => return .ran (← replay t config d o (c.file config.srcdir))

/-- Runs the cases in order; the first error ends the suite. -/
def run (s : Suite) (t : FileTree) (config : Config)
    (openDictionary : String → Except SuiteError (Dictionary α)) :
    Except SuiteError (List CaseOutcome) :=
  s.cases.mapM (runCase t config openDictionary)

end Suite

def Tally.ofOutcomes (e : ExpectedFailures) (outcomes : List CaseOutcome) : Tally :=
  outcomes.foldl (fun t outcome => match outcome with
    | .skipped .. => t.addSkip
    | .ran report => t.addReport report e) .empty

end LinkageCheck
