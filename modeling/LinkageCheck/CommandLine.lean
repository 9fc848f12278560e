import LinkageCheck.Corpus.Store
import LinkageCheck.Run.FailureText
import LinkageCheck.Suite

/-! The command line: its arguments, the suite that they ask for, and what is printed about it. -/

namespace LinkageCheck.CommandLine

inductive Switch where
  | discover | engineOrder | stopOnFailure
  deriving DecidableEq, Repr

inductive Setting where
  | srcdir | dataDir | suite | expectedFailures | lang | test | debug | verbosity
  deriving DecidableEq, Repr

def Switch.ofText? : String → Option Switch
  | "discover" => some discover
  | "no-eqcost-order" => some engineOrder
  | "stop-on-failure" => some stopOnFailure
  | _ => none

def Setting.ofText? : String → Option Setting
  | "srcdir" => some srcdir
  | "data-dir" => some dataDir
  | "suite" => some suite
  | "expected-failures" => some expectedFailures
  | "lang" => some lang
  | "test" => some test
  | "debug" => some debug
  | "verbosity" => some verbosity
  | _ => none

def Setting.isPath : Setting → Bool
  | srcdir | dataDir | suite | expectedFailures => true
  | _ => false

structure Arguments where
  switches : List Switch
  settings : List (Setting × String)
  deriving DecidableEq, Repr

namespace Arguments

def empty : Arguments := ⟨[], []⟩

def addSwitch (a : Arguments) (s : Switch) : Option Arguments :=
  if s ∈ a.switches then none else some { a with switches := s :: a.switches }

def setting? (a : Arguments) (s : Setting) : Option String := a.settings.lookup s

def addSetting (a : Arguments) (s : Setting) (value : String) : Option Arguments :=
  if (a.setting? s).isSome || (s.isPath && value.isEmpty) then none
  else some { a with settings := (s, value) :: a.settings }

def splitLong? (argument : String) : Option (String × Option String) :=
  match argument.toList with
  | '-' :: '-' :: cs =>
    let name := String.ofList (cs.takeWhile (· != '='))
    match cs.dropWhile (· != '=') with
    | [] => some (name, none)
    | _ :: value => some (name, some (String.ofList value))
  | _ => none

def isValue (argument : String) : Bool :=
  argument == "-" || argument.toList.head? != some '-'

def readFrom (a : Arguments) : List String → Option Arguments
  | [] => some a
  | argument :: rest =>
    if argument = "--" then if rest.isEmpty then some a else none
    else
      match splitLong? argument with
      | none => none
      | some (name, some value) => do
        readFrom (← a.addSetting (← Setting.ofText? name) value) rest
      | some (name, none) =>
        match Switch.ofText? name, rest with
        | some s, rest => do readFrom (← a.addSwitch s) rest
        | none, [] => none
        | none, value :: rest =>
          if isValue value then do
            readFrom (← a.addSetting (← Setting.ofText? name) value) rest
          else none

end Arguments

structure Environment where
  srcdir : Option String
  dataDir : Option String

structure Invocation where
  config : Config
  dataDir : String
  /-- The standard suite when absent. -/
  suite : Option String
  expectedFailures : String
  discover : Bool
  lang : Option String

namespace Invocation

def readVerbosity? (text : String) : Option Int :=
  (Decimal.readInt64? text.toList).filter (Decimal.fitsBits 32)

/-- Settings come before environment variables, and these before what is standard. An empty source
directory in the environment counts as none; an empty data directory is refused. -/
def ofArguments? (e : Environment) (a : Arguments) : Option Invocation := do
  let verbosity ← match a.setting? .verbosity with
    | none => some none
    | some text => (readVerbosity? text).map some
  let srcdir := (a.setting? .srcdir).getD ((e.srcdir.filter (!·.isEmpty)).getD ".")
  let dataDir := (a.setting? .dataDir).getD (e.dataDir.getD "data")
  guard !dataDir.isEmpty
  return {
    config := {
      srcdir
      order := if .engineOrder ∈ a.switches then .engine else .equalCost
      stopOnFailure := .stopOnFailure ∈ a.switches
      overrides := ⟨a.setting? .test, a.setting? .debug, verbosity⟩ }
    dataDir
    suite := a.setting? .suite
    expectedFailures :=
      (a.setting? .expectedFailures).getD (Path.join srcdir "expected-failures.toml")
    discover := .discover ∈ a.switches
    lang := a.setting? .lang }

def parse? (e : Environment) (arguments : List String) : Option Invocation := do
  ofArguments? e (← Arguments.empty.readFrom arguments)

def selectSuite (i : Invocation) (t : FileTree) : Except SuiteError Suite := do
  let s ← match i.suite with
    | some path => Suite.load t path
    | none => .ok .standard
  let s := if i.discover then (s.addDiscovered t i.config.srcdir).1 else s
  return i.lang.elim s s.retainLang

def loadFailures (i : Invocation) (t : FileTree) : Except SuiteError ExpectedFailures :=
  (ExpectedFailures.load t i.expectedFailures).mapError fun e =>
    .load i.expectedFailures e.message

def openDictionary (i : Invocation) (t : FileTree) (lang : String) :
    Except SuiteError (Dictionary RecordedLinkage) :=
  match RecordedDictionary.open? t i.dataDir lang with
  | .ok d => .ok d.toDictionary
  | .error e => .error (.load i.dataDir e.message)

def inputs (i : Invocation) (s : Suite) : List String :=
  s.cases.flatMap fun c => [Corpus.pathFor i.dataDir c.lang, c.file i.config.srcdir]

end Invocation

/-! ### What is printed -/

def failureText (e : ExpectedFailures) (f : CheckFailure) : String :=
  let reason := (e.entryFor? f.fileName f.line).bind (·.reason)
  f.text (e.classify f) ++ reason.elim "" fun r => s!"  expected: {r}\n"

def outcomeText (e : ExpectedFailures) : CaseOutcome → String
  | .skipped name reason => s!"\nSKIP: {name} ({reason})\n"
  | .ran report =>
    let file := Tally.empty.addReport report e
    String.join (report.failures.map (failureText e))
      ++ summaryText report.fileName file.passed report.failures.length file.expected
        file.regressions

def tallyText (t : Tally) : String :=
  s!"\n{t.total} checks: {t.passed} passed, {t.expected} expected failures, "
    ++ s!"{t.regressions} regressions, {t.skipped} skipped\n"

def Invocation.run (i : Invocation) (t : FileTree) : Except SuiteError (Tally × String) := do
  let s ← i.selectSuite t
  let expected ← i.loadFailures t
  let outcomes ← s.run t i.config (i.openDictionary t)
  let tally := Tally.ofOutcomes expected outcomes
  return (tally, String.join (outcomes.map (outcomeText expected)) ++ tallyText tally)

structure Exit where
  code : Nat
  output : String
  errors : String
  deriving DecidableEq, Repr

namespace Exit

def fatal (message : String) : Exit := ⟨2, "", s!"error: {message}\n"⟩

/-- The exit code is zero without regressions and one with regressions. -/
def ofRun : Except SuiteError (Tally × String) → Exit
  | .ok (tally, output) => ⟨tally.exitCode, output, ""⟩
  | .error e => fatal e.message

end Exit

def run (t : FileTree) (e : Environment) (arguments : List String) : Exit :=
  match Invocation.parse? e arguments with
  | some i => .ofRun (i.run t)
  | none => .fatal "wrong arguments"

end LinkageCheck.CommandLine
