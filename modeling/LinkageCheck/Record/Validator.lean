import LinkageCheck.Record.Line

/-! The structure of a file as its opcodes show it: a section must be ended before a line of
another kind, and a file must end with a comparison. -/

namespace LinkageCheck

inductive ValidationError where
  | unfinished (kind : SectionKind)
  | missingOpcode
  | missingComparison
  deriving DecidableEq, Repr

def ValidationError.message : ValidationError → String
  | unfinished kind => s!"Unfinished {kind.name} entry"
  | missingOpcode => "Missing opcode"
  | missingComparison => "Missing result comparison"

structure Validator where
  lastRecord : Option Opcode
  deriving DecidableEq, Repr

namespace Validator

def initial : Validator := ⟨none⟩

/-- Only its own opcode may follow a section that is pending; comments are no exception. -/
def check (v : Validator) (sections : Sections) (opcode : Opcode) :
    Except ValidationError Validator :=
  match sections.pending.find? fun kind => opcode.section? != some kind with
  | some kind => .error (.unfinished kind)
  | none => .ok (if opcode.isRecord then ⟨some opcode⟩ else v)

def finish (v : Validator) (sections : Sections) : Except ValidationError Unit :=
  match sections.pending.head? with
  | some kind => .error (.unfinished kind)
  | none =>
    match v.lastRecord with
    | none => .error .missingOpcode
    | some opcode => if opcode.section?.isSome then .ok () else .error .missingComparison

end Validator

end LinkageCheck
