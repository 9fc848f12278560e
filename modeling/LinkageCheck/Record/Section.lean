/-! The sections of a record. A section collects the lines of its opcode from the start of a
linkage up to the blank line that ends it. -/

namespace LinkageCheck

inductive SectionKind where
  | diagram | constituents | wordPositions
  deriving DecidableEq, Repr

namespace SectionKind

def all : List SectionKind := [diagram, constituents, wordPositions]

def opcode : SectionKind → Char
  | diagram => 'O'
  | constituents => 'C'
  | wordPositions => 'P'

def name : SectionKind → String
  | diagram => "diagram"
  | constituents => "constituents"
  | wordPositions => "word-position"

end SectionKind

def isBlankLine (text : String) : Bool := text == "" || text == "\n" || text == "\r\n"

/-- The diagram text which says that a sentence has no linkage at all. -/
def noLinkageMark : String := "C\nC\n"

inductive Feed where
  | more
  | noLinkage
  | complete (text : String)
  | notOpen
  deriving DecidableEq, Repr

/-- `buffer` is the text collected so far, and absent while the section is closed. -/
structure Section where
  kind : SectionKind
  buffer : Option String
  deriving DecidableEq, Repr

namespace Section

def closed (kind : SectionKind) : Section := ⟨kind, none⟩

def start (s : Section) : Section := { s with buffer := some "" }

def append (s : Section) (text : String) : Section :=
  { s with buffer := s.buffer.map (· ++ text) }

/-- What is collected when a blank line ends the section: a diagram keeps that line and the
blank line it begins with, so it needs more than two bytes. -/
def leastBytes : SectionKind → Nat
  | .diagram => 3
  | .constituents | .wordPositions => 2

def isTerminator (s : Section) (text : String) : Bool :=
  match s.buffer with
  | some buffer => isBlankLine text && leastBytes s.kind ≤ buffer.utf8ByteSize
  | none => false

def close (s : Section) : String × Section := (s.buffer.getD "", { s with buffer := none })

def isOpen (s : Section) : Bool := s.buffer.isSome

/-- Open with text that no blank line has ended yet. -/
def isPending (s : Section) : Bool := s.buffer.any (· != "")

/-- A diagram takes the line before it asks for the end, and may say that there is no linkage.
The other sections leave the ending line out. -/
def feed (s : Section) (text : String) : Feed × Section :=
  if !s.isOpen then (.notOpen, s)
  else
    match s.kind with
    | .diagram =>
      let s := s.append text
      if s.buffer = some noLinkageMark then (.noLinkage, s.close.2)
      else if s.isTerminator text then (.complete s.close.1, s.close.2)
      else (.more, s)
    | .constituents | .wordPositions =>
      if s.isTerminator text then (.complete s.close.1, s.close.2)
      else (.more, s.append text)

end Section

structure Sections where
  diagram : Section
  constituents : Section
  wordPositions : Section
  deriving DecidableEq, Repr

namespace Sections

def closed : Sections :=
  ⟨.closed .diagram, .closed .constituents, .closed .wordPositions⟩

def get (s : Sections) : SectionKind → Section
  | .diagram => s.diagram
  | .constituents => s.constituents
  | .wordPositions => s.wordPositions

def set (s : Sections) (kind : SectionKind) (value : Section) : Sections :=
  match kind with
  | .diagram => { s with diagram := value }
  | .constituents => { s with constituents := value }
  | .wordPositions => { s with wordPositions := value }

def startAll (s : Sections) : Sections :=
  ⟨s.diagram.start, s.constituents.start, s.wordPositions.start⟩

def pending (s : Sections) : List SectionKind :=
  SectionKind.all.filter fun kind => (s.get kind).isPending

def feed (s : Sections) (kind : SectionKind) (text : String) : Feed × Sections :=
  let (result, section_) := (s.get kind).feed text
  (result, s.set kind section_)

end Sections

end LinkageCheck
