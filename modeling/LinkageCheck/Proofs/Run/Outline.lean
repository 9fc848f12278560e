import LinkageCheck.Proofs.Record.Closing
import LinkageCheck.Proofs.Record.Lines
import LinkageCheck.Run.Basic

/-! A run split in two: its outline, which the lines of the file alone decide, and the comparisons
that the outline calls for. -/

namespace LinkageCheck

namespace Line

def sentenceText (l : Line) : String :=
  String.ofList (Text.dropTail (fun c => c == '\r' || c == '\n') l.text.toList)

def direct (baseline o : Options) (l : Line) : Except Directive.Error Options := do
  (← Directive.read l.text).apply baseline o

def optionsAfter (baseline o : Options) (l : Line) : Options :=
  match l.opcode with
  | .directive =>
    match l.direct baseline o with
    | .ok o => o
    | .error _ => o
  | _ => o

end Line

inductive Event where
  | quiet
  | sentence (text : String)
  | next
  | closed (kind : SectionKind) (closing : Closing)

/-- The part of a run's state that does not depend on the dictionary. -/
structure Outline where
  options : Options
  collected : SectionKind → Option String
  lastRecord : Option Opcode
  started : Bool
  lastLine : Nat
  sentences : Nat

namespace Outline

def initial (o : Options) : Outline := ⟨o, fun _ => none, none, false, 0, 0⟩

def pending (s : Outline) : List SectionKind :=
  SectionKind.all.filter fun kind => (s.collected kind).any (· != "")

def unfinished? (s : Outline) (opcode : Opcode) : Option SectionKind :=
  s.pending.find? fun kind => opcode.section? != some kind

def reopen (s : Outline) : Outline := { s with collected := fun _ => some "" }

def sectionStep (s : Outline) (kind : SectionKind) (text : String) :
    Except RunFault (Outline × Event) :=
  match s.collected kind with
  | none => .error (.lineOutsideSection kind)
  | some earlier =>
    match kind.closing? earlier text with
    | some closing =>
      .ok ({ s with collected := Function.update s.collected kind none }, .closed kind closing)
    | none =>
      .ok ({ s with collected := Function.update s.collected kind (some (earlier ++ text)) },
        .quiet)

def arrive (s : Outline) (l : Line) : Outline :=
  { s with
    lastRecord := if l.opcode.isRecord then some l.opcode else s.lastRecord
    lastLine := l.number }

def act (baseline : Options) (s : Outline) (l : Line) : Except RunFault (Outline × Event) :=
  match l.opcode with
  | .comment => .ok (s, .quiet)
  | .directive =>
    match l.direct baseline s.options with
    | .ok o => .ok ({ s with options := o }, .quiet)
    | .error e => .error (.directive e)
  | .sentence =>
    .ok ({ s.reopen with started := true, sentences := s.sentences + 1 }, .sentence l.sentenceText)
  | .next => if s.started then .ok (s.reopen, .next) else .error .nextWithoutSentence
  | .diagram => s.sectionStep .diagram l.text
  | .constituents => s.sectionStep .constituents l.text
  | .wordPositions => s.sectionStep .wordPositions l.text

def step (baseline : Options) (s : Outline) (l : Line) : Except RunFault (Outline × Event) :=
  match s.unfinished? l.opcode with
  | some kind => .error (.validation (.unfinished kind))
  | none => (s.arrive l).act baseline l

def finish (s : Outline) : Except RunFault Unit :=
  match s.pending.head? with
  | some kind => .error (.validation (.unfinished kind))
  | none =>
    match s.lastRecord with
    | none => .error (.validation .missingOpcode)
    | some opcode =>
      if opcode.section?.isSome then .ok () else .error (.validation .missingComparison)

/-- How the lines of a file end, with the number of sentences. -/
def lines (path : String) (baseline : Options) (s : Outline) :
    List (Except ScanError Line) → Except RunError Nat
  | [] =>
    match s.finish with
    | .ok () => .ok s.sentences
    | .error f => .error ⟨path, s.lastLine, f⟩
  | .error e :: _ => .error ⟨path, e.number, .scan e.fault⟩
  | .ok l :: rest =>
    match s.step baseline l with
    | .error f => .error ⟨path, l.number, f⟩
    | .ok (s, _) => lines path baseline s rest

/-- The lines that are taken before the first one with a fault. -/
def reached (baseline : Options) (s : Outline) : List (Except ScanError Line) → List Line
  | .ok l :: rest =>
    match s.step baseline l with
    | .ok (s, _) => l :: reached baseline s rest
    | .error _ => []
  | _ => []

def through (baseline : Options) (s : Outline) : List Line → Option Outline
  | [] => some s
  | l :: ls =>
    match s.step baseline l with
    | .ok (out, _) => out.through baseline ls
    | .error _ => none

end Outline

theorem Line.optionsAfter_of_section {baseline o : Options} {l : Line} {kind : SectionKind}
    (hopcode : l.opcode.section? = some kind) : l.optionsAfter baseline o = o := by
  rw [optionsAfter]
  cases h : l.opcode with
  | directive => rw [h] at hopcode; cases hopcode
  | _ => rfl

namespace Outline

variable {baseline : Options} {s out : Outline} {l : Line} {ls : List Line} {event : Event}

theorem mem_all (kind : SectionKind) : kind ∈ SectionKind.all := by
  cases kind <;> decide

theorem pending_eq_nil : s.pending = [] ↔ ∀ kind, (s.collected kind).any (· != "") = false := by
  rw [pending, List.filter_eq_nil_iff]
  exact ⟨fun h kind => Bool.eq_false_iff.mpr (h kind (mem_all kind)),
    fun h kind _ => Bool.eq_false_iff.mp (h kind)⟩

theorem unfinished?_eq_none {opcode : Opcode} :
    s.unfinished? opcode = none ↔
      ∀ kind, opcode.section? ≠ some kind → (s.collected kind).any (· != "") = false := by
  rw [unfinished?, pending, List.find?_filter, List.find?_eq_none]
  refine ⟨fun h kind hne => ?_, fun h kind _ => ?_⟩
  · have := h kind (mem_all kind)
    simpa [hne] using this
  · by_cases hne : opcode.section? = some kind
    · simp [hne]
    · simp [h kind hne]

theorem unfinished?_of_pending (h : s.pending = []) (opcode : Opcode) :
    s.unfinished? opcode = none := by
  rw [unfinished?, h]
  rfl

theorem finish_eq_ok :
    s.finish = .ok () ↔ s.pending = [] ∧ ∃ opcode, s.lastRecord = some opcode
      ∧ opcode.section?.isSome := by
  rw [finish]
  rcases s.pending with _ | ⟨kind, later⟩
  · rcases s.lastRecord with _ | opcode
    · simp
    · cases opcode <;> simp [Opcode.section?]
  · simp

inductive Act (baseline : Options) (s : Outline) (l : Line) : Outline → Event → Prop where
  | comment (hopcode : l.opcode = .comment) : Act baseline s l s .quiet
  | directive {o : Options} (hopcode : l.opcode = .directive)
    (hdirect : l.direct baseline s.options = .ok o) :
    Act baseline s l { s with options := o } .quiet
  | sentence (hopcode : l.opcode = .sentence) :
    Act baseline s l { s.reopen with started := true, sentences := s.sentences + 1 }
      (.sentence l.sentenceText)
  | next (hopcode : l.opcode = .next) (hstarted : s.started = true) :
    Act baseline s l s.reopen .next
  | collect {kind : SectionKind} {earlier : String} (hopcode : l.opcode.section? = some kind)
    (hopen : s.collected kind = some earlier) (hrule : kind.closing? earlier l.text = none) :
    Act baseline s l
      { s with collected := Function.update s.collected kind (some (earlier ++ l.text)) } .quiet
  | close {kind : SectionKind} {earlier : String} {closing : Closing}
    (hopcode : l.opcode.section? = some kind) (hopen : s.collected kind = some earlier)
    (hrule : kind.closing? earlier l.text = some closing) :
    Act baseline s l { s with collected := Function.update s.collected kind none }
      (.closed kind closing)

theorem act_of_section {kind : SectionKind} (hopcode : l.opcode.section? = some kind) :
    s.act baseline l = s.sectionStep kind l.text := by
  rw [act]
  cases h : l.opcode <;> rw [h] at hopcode <;> cases hopcode <;> rfl

theorem sectionStep_cases {kind : SectionKind} (hopcode : l.opcode.section? = some kind)
    (h : s.sectionStep kind l.text = .ok (out, event)) : Act baseline s l out event := by
  rw [sectionStep] at h
  rcases hopen : s.collected kind with _ | earlier
  · rw [hopen] at h
    cases h
  · rcases hrule : kind.closing? earlier l.text with _ | closing
    · simp only [hopen, hrule, Except.ok.injEq, Prod.mk.injEq] at h
      obtain ⟨rfl, rfl⟩ := h
      exact .collect hopcode hopen hrule
    · simp only [hopen, hrule, Except.ok.injEq, Prod.mk.injEq] at h
      obtain ⟨rfl, rfl⟩ := h
      exact .close hopcode hopen hrule

theorem act_cases (h : s.act baseline l = .ok (out, event)) : Act baseline s l out event := by
  rcases hsection : l.opcode.section? with _ | kind
  · rw [act] at h
    cases hopcode : l.opcode with
    | comment =>
      rw [hopcode] at h
      cases h
      exact .comment hopcode
    | directive =>
      rw [hopcode] at h
      rcases hdirect : l.direct baseline s.options with e | o
      · rw [hdirect] at h
        cases h
      · rw [hdirect] at h
        cases h
        exact .directive hopcode hdirect
    | sentence =>
      rw [hopcode] at h
      cases h
      exact .sentence hopcode
    | next =>
      rw [hopcode] at h
      by_cases hstarted : s.started = true
      · simp only [hstarted, if_true] at h
        cases h
        exact .next hopcode hstarted
      · simp only [hstarted] at h
        cases h
    | diagram => simp [hopcode, Opcode.section?] at hsection
    | constituents => simp [hopcode, Opcode.section?] at hsection
    | wordPositions => simp [hopcode, Opcode.section?] at hsection
  · rw [act_of_section hsection] at h
    exact sectionStep_cases hsection h

theorem act_of_cases (h : Act baseline s l out event) : s.act baseline l = .ok (out, event) := by
  cases h with
  | comment hopcode => rw [act, hopcode]
  | directive hopcode hdirect =>
    rw [act, hopcode]
    simp only [hdirect]
  | sentence hopcode => rw [act, hopcode]
  | next hopcode hstarted =>
    rw [act, hopcode]
    simp only [hstarted, if_true]
  | collect hopcode hopen hrule =>
    rw [act_of_section hopcode, sectionStep, hopen]
    simp only [hrule]
  | close hopcode hopen hrule =>
    rw [act_of_section hopcode, sectionStep, hopen]
    simp only [hrule]

theorem Act.of_sentence (h : Act baseline s l out event) (hopcode : l.opcode = .sentence) :
    out = { s.reopen with started := true, sentences := s.sentences + 1 }
      ∧ event = .sentence l.sentenceText := by
  have hact := act_of_cases h
  rw [act, hopcode] at hact
  cases hact
  exact ⟨rfl, rfl⟩

theorem Act.direct_eq (h : Act baseline s l out event) (hopcode : l.opcode = .directive) :
    ∃ o, l.direct baseline s.options = .ok o := by
  have hact := act_of_cases h
  rw [act, hopcode] at hact
  rcases hdirect : l.direct baseline s.options with e | o
  · simp only [hdirect] at hact
    cases hact
  · exact ⟨o, rfl⟩

theorem Act.options_eq (h : Act baseline s l out event) :
    out.options = l.optionsAfter baseline s.options := by
  cases h with
  | comment hopcode => rw [Line.optionsAfter, hopcode]
  | directive hopcode hdirect => simp only [Line.optionsAfter, hopcode, hdirect]
  | sentence hopcode =>
    rw [Line.optionsAfter, hopcode]
    rfl
  | next hopcode hstarted =>
    rw [Line.optionsAfter, hopcode]
    rfl
  | collect hopcode hopen hrule => rw [Line.optionsAfter_of_section hopcode]
  | close hopcode hopen hrule => rw [Line.optionsAfter_of_section hopcode]

theorem step_eq_ok_iff : s.step baseline l = .ok (out, event) ↔
    s.unfinished? l.opcode = none ∧ Act baseline (s.arrive l) l out event := by
  rw [step]
  rcases s.unfinished? l.opcode with _ | kind
  · exact ⟨fun h => ⟨rfl, act_cases h⟩, fun h => act_of_cases h.2⟩
  · exact ⟨fun h => (by cases h), fun h => (by cases h.1)⟩

theorem through_cons : s.through baseline (l :: ls) = some out ↔
    ∃ next event, s.step baseline l = .ok (next, event) ∧ next.through baseline ls = some out := by
  rw [through]
  rcases s.step baseline l with f | ⟨next, event⟩
  · exact ⟨fun h => (by cases h), fun ⟨_, _, h, _⟩ => (by cases h)⟩
  · exact ⟨fun h => ⟨next, event, rfl, h⟩, fun ⟨_, _, hstep, h⟩ => by cases hstep; exact h⟩

theorem through_append (ls later : List Line) :
    s.through baseline (ls ++ later) = (s.through baseline ls).bind (·.through baseline later) := by
  induction ls generalizing s with
  | nil => rfl
  | cons l ls ih =>
    rw [List.cons_append, through, through]
    rcases s.step baseline l with f | ⟨out, event⟩
    · rfl
    · exact ih

theorem lines_append (path : String) (rest : List (Except ScanError Line))
    (h : s.through baseline ls = some out) :
    s.lines path baseline (ls.map .ok ++ rest) = out.lines path baseline rest := by
  induction ls generalizing s with
  | nil =>
    obtain rfl := Option.some.inj h
    rfl
  | cons l ls ih =>
    obtain ⟨next, event, hstep, h⟩ := through_cons.mp h
    rw [List.map_cons, List.cons_append, lines, hstep]
    exact ih h

def Stops (baseline : Options) (s : Outline) (item : Except ScanError Line) : Prop :=
  ∀ l, item = .ok l → ∃ f, s.step baseline l = .error f

theorem reached_spec (baseline : Options) (s : Outline) (items : List (Except ScanError Line)) :
    ∃ rest out, items = (s.reached baseline items).map .ok ++ rest
      ∧ s.through baseline (s.reached baseline items) = some out
      ∧ ∀ item later, rest = item :: later → out.Stops baseline item := by
  induction items generalizing s with
  | nil => exact ⟨[], s, rfl, rfl, fun item later h => (by cases h)⟩
  | cons item items ih =>
    rcases item with e | l
    · refine ⟨.error e :: items, s, rfl, rfl, fun item later h l hl => ?_⟩
      cases h
      cases hl
    · rw [reached]
      rcases hstep : s.step baseline l with f | ⟨next, event⟩
      · refine ⟨.ok l :: items, s, rfl, rfl, fun item later h m hm => ?_⟩
        cases h
        cases hm
        exact ⟨f, hstep⟩
      · obtain ⟨rest, out, hitems, hthrough, hstop⟩ := ih next
        refine ⟨rest, out, ?_, through_cons.mpr ⟨next, event, hstep, hthrough⟩, hstop⟩
        rw [List.map_cons, List.cons_append, ← hitems]

theorem Stops.lines_eq {item : Except ScanError Line} (h : s.Stops baseline item) (path : String)
    (rest : List (Except ScanError Line)) :
    ∃ f, s.lines path baseline (item :: rest) = .error ⟨path, itemNumber item, f⟩ := by
  rcases item with e | l
  · exact ⟨_, rfl⟩
  · obtain ⟨f, hf⟩ := h l rfl
    rw [lines, hf]
    exact ⟨f, rfl⟩

end Outline

end LinkageCheck
