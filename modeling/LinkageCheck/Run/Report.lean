import LinkageCheck.Comparison
import LinkageCheck.Files.Path

/-! The outcome of replaying one expected-results file. -/

namespace LinkageCheck

/-- A comparison that did not hold: the line that led to it, the sentence, and the ordinal of
the linkage compared, zero if there was none. -/
structure CheckFailure where
  path : String
  line : Nat
  sentence : Option String
  linkage : Nat
  kind : Mismatch
  deriving DecidableEq, Repr

namespace CheckFailure

def fileName (f : CheckFailure) : String := Path.fileName f.path

def reference (f : CheckFailure) : String := s!"{f.fileName}:{f.line}"

end CheckFailure

structure Report where
  path : String
  sentences : Nat
  checks : Nat
  passed : Nat
  failures : List CheckFailure
  /-- The file was left at its first failure. -/
  stoppedEarly : Bool
  deriving DecidableEq, Repr

namespace Report

def empty (path : String) : Report := ⟨path, 0, 0, 0, [], false⟩

def fileName (r : Report) : String := Path.fileName r.path

def success (r : Report) : Bool := r.failures.isEmpty

end Report

end LinkageCheck
