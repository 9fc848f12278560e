import LinkageCheck.Directive
import LinkageCheck.Record.Validator
import LinkageCheck.Run.Report

/-! Replaying an expected-results file line by line. A comparison that fails is recorded and the
rest of the record is skipped; a line that is out of place ends the run. -/

namespace LinkageCheck

inductive RunFault where
  | unreadable (reason : String)
  | scan (fault : ScanFault)
  | validation (error : ValidationError)
  | nextWithoutSentence
  | lineOutsideSection (kind : SectionKind)
  | directive (error : Directive.Error)
  | engine (error : EngineError)
  deriving DecidableEq, Repr

def RunFault.message : RunFault → String
  | unreadable reason => "cannot read expected results: " ++ reason
  | scan fault => fault.message
  | validation error => error.message
  | nextWithoutSentence => "next linkage requested before any sentence"
  | lineOutsideSection kind =>
    kind.opcode.toString ++ s!" line outside an open {kind.name} entry"
  | directive error => error.message
  | engine error => error.message

structure RunError where
  path : String
  line : Nat
  fault : RunFault
  deriving DecidableEq, Repr

def RunError.message (e : RunError) : String := s!"{e.path}:{e.line}: " ++ e.fault.message

/-- What stays the same during a run; `baseline` holds the options that it started with. -/
structure RunSetup (α : Type) where
  dictionary : Dictionary α
  order : CandidateOrder
  stopOnFailure : Bool
  path : String
  baseline : Options

structure RunState (α : Type) where
  options : Options
  sections : Sections
  validator : Validator
  cursor : Cursor α
  sentence : Option String
  /-- The record failed, so its further comparisons are passed over. -/
  skipping : Bool
  lastLine : Nat
  report : Report

inductive Flow where
  | goOn | stop
  deriving DecidableEq, Repr

/-- The options are those at the end of the run, however it ended. -/
structure RunOutcome where
  result : Except RunError Report
  options : Options

variable {α : Type} [Linkage α]

namespace RunState

def initial (path : String) (o : Options) : RunState α where
  options := o
  sections := .closed
  validator := .initial
  cursor := .idle
  sentence := none
  skipping := false
  lastLine := 0
  report := .empty path

def pass (s : RunState α) : RunState α :=
  { s with report := { s.report with
      checks := s.report.checks + 1
      passed := s.report.passed + 1 } }

def fail (s : RunState α) (path : String) (line : Nat) (kind : Mismatch) : RunState α :=
  { s with
    skipping := true
    report := { s.report with
      checks := s.report.checks + 1
      failures := s.report.failures ++ [⟨path, line, s.sentence, s.cursor.ordinal, kind⟩] } }

end RunState

namespace RunSetup

def fault (r : RunSetup α) (line : Nat) (f : RunFault) : RunError := ⟨r.path, line, f⟩

def record (r : RunSetup α) (s : RunState α) (line : Nat) :
    Except Mismatch Unit → Flow × RunState α
  | .ok () => (.goOn, s.pass)
  | .error kind => (if r.stopOnFailure then .stop else .goOn, s.fail r.path line kind)

def directive (r : RunSetup α) (s : RunState α) (line : Line) :
    Except RunError (Flow × RunState α) :=
  let applied := do (← Directive.read line.text).apply r.baseline s.options
  match applied with
  | .ok o => .ok (.goOn, { s with options := o })
  | .error e => .error (r.fault line.number (.directive e))

def sentence (r : RunSetup α) (s : RunState α) (line : Line) :
    Except RunError (Flow × RunState α) :=
  let text := String.ofList (Text.dropTail (fun c => c == '\r' || c == '\n') line.text.toList)
  match s.cursor.start r.dictionary text s.options r.order with
  | (.error e, _) => .error (r.fault line.number (.engine e))
  | (.ok (), cursor) =>
    .ok (.goOn, { s with
      sections := s.sections.startAll
      skipping := false
      sentence := some text
      cursor
      report := { s.report with sentences := s.report.sentences + 1 } })

def nextLinkage (r : RunSetup α) (s : RunState α) (line : Line) :
    Except RunError (Flow × RunState α) :=
  if !s.cursor.isStarted then .error (r.fault line.number .nextWithoutSentence)
  else
    let s := { s with sections := s.sections.startAll }
    if s.skipping then .ok (.goOn, s)
    else
      let s := { s with cursor := s.cursor.advance }
      if s.cursor.current.isSome then .ok (.goOn, s)
      else .ok (r.record s line.number (.error .tooFewLinkages))

def compareSection (s : RunState α) (kind : SectionKind) (expected : String) :
    Except Mismatch Unit × Cursor α :=
  match kind with
  | .diagram => (Comparison.checkDiagram s.cursor.current expected, s.cursor)
  | .constituents => (Comparison.checkConstituents s.cursor.current expected, s.cursor)
  | .wordPositions => Comparison.checkPositions s.cursor expected

def sectionLine (r : RunSetup α) (s : RunState α) (kind : SectionKind) (line : Line) :
    Except RunError (Flow × RunState α) :=
  let (feed, sections) := s.sections.feed kind line.text
  let s := { s with sections }
  match feed with
  | .more => .ok (.goOn, s)
  | .notOpen => .error (r.fault line.number (.lineOutsideSection kind))
  | .noLinkage =>
    if s.skipping then .ok (.goOn, s)
    else .ok (r.record s line.number (Comparison.checkNone s.cursor.current))
  | .complete expected =>
    if s.skipping then .ok (.goOn, s)
    else
      let (outcome, cursor) := compareSection s kind expected
      .ok (r.record { s with cursor } line.number outcome)

/-- Routes a line by its opcode, after the check of its place in the file. -/
def line (r : RunSetup α) (s : RunState α) (line : Line) : Except RunError (Flow × RunState α) :=
  match s.validator.check s.sections line.opcode with
  | .error e => .error (r.fault line.number (.validation e))
  | .ok validator =>
    let s := { s with validator, lastLine := line.number }
    match line.opcode with
    | .comment => .ok (.goOn, s)
    | .directive => r.directive s line
    | .sentence => r.sentence s line
    | .next => r.nextLinkage s line
    | .diagram => r.sectionLine s .diagram line
    | .constituents => r.sectionLine s .constituents line
    | .wordPositions => r.sectionLine s .wordPositions line

def finish (r : RunSetup α) (s : RunState α) : RunOutcome :=
  match s.validator.finish s.sections with
  | .ok () => ⟨.ok s.report, s.options⟩
  | .error e => ⟨.error (r.fault s.lastLine (.validation e)), s.options⟩

def lines (r : RunSetup α) (s : RunState α) : List (Except ScanError Line) → RunOutcome
  | [] => r.finish s
  | .error e :: _ => ⟨.error (r.fault e.number (.scan e.fault)), s.options⟩
  | .ok line :: rest =>
    match r.line s line with
    | .error e => ⟨.error e, s.options⟩
    | .ok (.stop, s) => ⟨.ok { s.report with stoppedEarly := true }, s.options⟩
    | .ok (.goOn, s) => r.lines s rest

end RunSetup

/-- Replays a file that is in memory. `path` attributes errors and failures. -/
def runBytes (dictionary : Dictionary α) (order : CandidateOrder) (stopOnFailure : Bool)
    (path : String) (o : Options) (content : List UInt8) : RunOutcome :=
  RunSetup.lines ⟨dictionary, order, stopOnFailure, path, o⟩ (.initial path o) (scan content)

end LinkageCheck
