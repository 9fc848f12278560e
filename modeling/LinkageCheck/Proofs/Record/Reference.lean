import LinkageCheck.Proofs.Cursor
import LinkageCheck.Proofs.Record.Lines
import LinkageCheck.Proofs.Run.Outline
import Mathlib.Algebra.GroupWithZero.Nat

/-! The report of a file told record by record: each record is a walk of an index through the full
list of candidates of its sentence, and ends at its first failure. -/

namespace LinkageCheck

namespace Line

/-- What a line calls for, where `entry` holds the lines since the last sentence or next line. -/
def event (entry : List Line) (l : Line) : Event :=
  match l.opcode with
  | .comment | .directive => .quiet
  | .sentence => .sentence l.sentenceText
  | .next => .next
  | .diagram => closed .diagram
  | .constituents => closed .constituents
  | .wordPositions => closed .wordPositions
where
  closed (kind : SectionKind) : Event :=
    (kind.closing? (textOf kind entry) l.text).elim .quiet (.closed kind)

/-- The lines since the last sentence or next line, this one taken in. -/
def extend (entry : List Line) (l : Line) : List Line :=
  match l.opcode with
  | .sentence | .next => []
  | _ => entry ++ [l]

end Line

/-- What became of the comparisons of a record. -/
structure Verdict where
  passed : Nat
  failure : Option CheckFailure

namespace Verdict

def empty : Verdict := ⟨0, none⟩

def pass (v : Verdict) : Verdict := { v with passed := v.passed + 1 }

def failed (f : CheckFailure) : Verdict := ⟨0, some f⟩

def checks (v : Verdict) : Nat := v.passed + v.failure.toList.length

end Verdict

variable {α : Type} [Linkage α]

/-- What an event means at place `i` of the candidates `xs`: the outcome of a comparison, if there
is one, and the place behind it. -/
def judge (xs : List α) (i : Nat) : Event → Option (Except Mismatch Unit) × Nat
  | .quiet | .sentence _ => (none, i)
  | .next =>
    let j := min (i + 1) xs.length
    (if j = xs.length then some (.error .tooFewLinkages) else none, j)
  | .closed _ .noLinkage => (some (if i < xs.length then .error .unexpectedLinkage else .ok ()), i)
  | .closed kind (.text expected) =>
    match xs[i]? with
    | none => (some (.error (.noLinkage kind)), i)
    | some linkage =>
      match kind with
      | .diagram => (some (Comparison.compare .diagram expected (Linkage.diagram linkage)), i)
      | .constituents =>
        (some (Comparison.compare .constituents expected (Linkage.constituents linkage)), i)
      | .wordPositions =>
        if Comparison.isMarked expected then
          let j := Comparison.firstMatch expected xs i
          (some (if j < xs.length then .ok () else .error (.noMatch expected (xs.length - i))), j)
        else
          (some (Comparison.compare .wordPositions expected (Linkage.positions linkage)), i)

def walk (path sentence : String) (xs : List α) : Nat → List Line → List Line → Verdict
  | _, _, [] => .empty
  | i, entry, l :: rest =>
    match judge xs i (l.event entry) with
    | (none, j) => walk path sentence xs j (l.extend entry) rest
    | (some (.ok ()), j) => (walk path sentence xs j (l.extend entry) rest).pass
    | (some (.error kind), j) => .failed ⟨path, l.number, some sentence, j + 1, kind⟩

namespace RunSetup

end RunSetup

end LinkageCheck
