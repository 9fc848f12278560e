import LinkageCheck.Record.Section
import LinkageCheck.Text.Basic
import LinkageCheck.Text.Utf8

/-! The lines of an expected-results file. The first character of a line is its opcode, and the
rest, line end included, its text. Every line is decoded on its own, so a fault concerns one
line only. -/

namespace LinkageCheck

inductive Opcode where
  | sentence | next | diagram | constituents | wordPositions | directive | comment
  deriving DecidableEq, Repr

namespace Opcode

def ofChar? : Char → Option Opcode
  | 'I' => some sentence
  | 'N' => some next
  | 'O' => some diagram
  | 'C' => some constituents
  | 'P' => some wordPositions
  | '-' => some directive
  | '%' | '\r' | '\n' => some comment
  | _ => none

def section? : Opcode → Option SectionKind
  | diagram => some .diagram
  | constituents => some .constituents
  | wordPositions => some .wordPositions
  | _ => none

def isRecord : Opcode → Bool
  | sentence | next | diagram | constituents | wordPositions => true
  | directive | comment => false

end Opcode

structure Line where
  number : Nat
  opcode : Opcode
  text : String
  deriving DecidableEq, Repr

inductive ScanFault where
  | undecodable (fault : Text.Utf8.Fault)
  | unknownOpcode (c : Char)
  deriving DecidableEq, Repr

def ScanFault.message : ScanFault → String
  | undecodable fault => "line is not valid UTF-8: " ++ fault.message
  | unknownOpcode c => "Invalid opcode \"" ++ c.toString ++ s!"\" (ord={c.toNat})"

structure ScanError where
  number : Nat
  fault : ScanFault
  deriving DecidableEq, Repr

/-- An empty piece reads as a line end. -/
def Line.ofChars (number : Nat) (cs : List Char) : Except ScanError Line :=
  let lead := cs.headD '\n'
  match Opcode.ofChar? lead with
  | some opcode => .ok ⟨number, opcode, String.ofList cs.tail⟩
  | none => .error ⟨number, .unknownOpcode lead⟩

def Line.ofBytes (number : Nat) (bytes : List UInt8) : Except ScanError Line :=
  match Text.Utf8.decode bytes with
  | .ok cs => ofChars number cs
  | .error fault => .error ⟨number, .undecodable fault⟩

def scanFrom : Nat → List (List UInt8) → List (Except ScanError Line)
  | _, [] => []
  | number, piece :: pieces => Line.ofBytes number piece :: scanFrom (number + 1) pieces

/-- All lines of a file, those with a fault included. -/
def scan (content : List UInt8) : List (Except ScanError Line) :=
  scanFrom 1 (Text.cutAfter (· == 10) content)

end LinkageCheck
