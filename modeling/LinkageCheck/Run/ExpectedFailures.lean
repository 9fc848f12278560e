import LinkageCheck.Files.Tree
import LinkageCheck.Run.Report
import LinkageCheck.Toml.Decode

/-! Failures that are expected, listed by file name and line, and the tally that sets them apart
from regressions. -/

namespace LinkageCheck

structure FailureEntry where
  file : String
  line : Nat
  reason : Option String
  added : Option String
  issue : Option String
  deriving DecidableEq, Repr

inductive FailureState where
  | known | pending | regression
  deriving DecidableEq, Repr

structure ExpectedFailures where
  known : List FailureEntry
  pending : List FailureEntry
  deriving DecidableEq, Repr

def FailureEntry.isFor (e : FailureEntry) (file : String) (line : Nat) : Bool :=
  e.file == file && e.line == line

namespace ExpectedFailures

def empty : ExpectedFailures := ⟨[], []⟩

inductive LoadError where
  | unreadable (path : String) (fault : FileFault)
  | malformed (path : String)
  deriving DecidableEq, Repr

def LoadError.message : LoadError → String
  | unreadable path fault => s!"Failed to read {path}: {fault.message}"
  | malformed path => s!"Failed to parse {path}: not a list of failures"

open Toml (Value) in
def entry? (v : Value) : Option FailureEntry := do
  let es ← v.fields? ["file", "line", "reason", "added", "issue"]
  return {
    file := ← es.required "file" Value.string?
    line := ← es.required "line" Value.natural?
    reason := ← es.optional "reason" Value.string?
    added := ← es.optional "added" Value.string?
    issue := ← es.optional "issue" Value.string? }

def parse? (text : String) : Option ExpectedFailures := do
  let es ← Toml.parse? text
  return ⟨← es.withDefault "known" (Toml.Value.list? entry?) [],
    ← es.withDefault "pending" (Toml.Value.list? entry?) []⟩

/-- A file that does not exist lists no failures. -/
def load (t : FileTree) (path : String) : Except LoadError ExpectedFailures :=
  if !t.pathExists path then .ok empty
  else
    match t.readText path with
    | .error fault => .error (.unreadable path fault)
    | .ok text =>
      match parse? text with
      | some e => .ok e
      | none => .error (.malformed path)

/-- The state of a failure at a line of a file; known failures come before pending ones. -/
def stateOf (e : ExpectedFailures) (file : String) (line : Nat) : FailureState :=
  if e.known.any (·.isFor file line) then .known
  else if e.pending.any (·.isFor file line) then .pending
  else .regression

def classify (e : ExpectedFailures) (f : CheckFailure) : FailureState :=
  e.stateOf f.fileName f.line

def entryFor? (e : ExpectedFailures) (file : String) (line : Nat) : Option FailureEntry :=
  (e.known ++ e.pending).find? (·.isFor file line)

def count (e : ExpectedFailures) : Nat := e.known.length + e.pending.length

end ExpectedFailures

structure Tally where
  total : Nat
  passed : Nat
  expected : Nat
  regressions : Nat
  skipped : Nat
  deriving DecidableEq, Repr

namespace Tally

def empty : Tally := ⟨0, 0, 0, 0, 0⟩

def exitCode (t : Tally) : Nat := if 0 < t.regressions then 1 else 0

def success (t : Tally) : Bool := t.regressions == 0

def addPass (t : Tally) : Tally := { t with total := t.total + 1, passed := t.passed + 1 }

def addFailure (t : Tally) : FailureState → Tally
  | .known | .pending => { t with total := t.total + 1, expected := t.expected + 1 }
  | .regression => { t with total := t.total + 1, regressions := t.regressions + 1 }

def addSkip (t : Tally) : Tally := { t with skipped := t.skipped + 1 }

def addPasses (t : Tally) : Nat → Tally
  | 0 => t
  | n + 1 => addPasses t.addPass n

def addReport (t : Tally) (r : Report) (e : ExpectedFailures) : Tally :=
  r.failures.foldl (fun t f => t.addFailure (e.classify f)) (t.addPasses r.passed)

end Tally

end LinkageCheck
