import LinkageCheck.Proofs.Alike
import LinkageCheck.Proofs.Run.Settling

/-! Two runs that take the same lines, one of them further down a file and on top of an earlier
report. As long as no comparison tells their cursors apart, they go the same way. -/

namespace LinkageCheck

/-! ### Further down a file -/

def CheckFailure.down (f : CheckFailure) (n : Nat) : CheckFailure := { f with line := f.line + n }

def RunError.down (e : RunError) (n : Nat) : RunError := { e with line := e.line + n }

/-- What a report becomes behind `n` lines with a report of their own. -/
def Report.behind (report before : Report) (n : Nat) : Report where
  path := report.path
  sentences := before.sentences + report.sentences
  checks := before.checks + report.checks
  passed := before.passed + report.passed
  failures := before.failures ++ report.failures.map (·.down n)
  stoppedEarly := report.stoppedEarly

def RunOutcome.behind (outcome : RunOutcome) (before : Report) (n : Nat) : RunOutcome where
  result :=
    match outcome.result with
    | .ok report => .ok (report.behind before n)
    | .error e => .error (e.down n)
  options := outcome.options

variable {α : Type} [Linkage α]

def RunState.behind (t : RunState α) (before : Report) (n : Nat) (cursor : Cursor α) : RunState α :=
  { t with cursor, lastLine := t.lastLine + n, report := t.report.behind before n }

/-- Every sentence is refused alike, or starts cursors that no comparison tells apart. -/
structure RunSetup.Mirrors (r r' : RunSetup α) : Prop where
  path : r.path = r'.path
  stopOnFailure : r.stopOnFailure = r'.stopOnFailure
  start : ∀ (c c' : Cursor α) text o,
    (c.start r.dictionary text o r.order).1 = (c'.start r'.dictionary text o r'.order).1
      ∧ (c.start r.dictionary text o r.order).2.Alike (c'.start r'.dictionary text o r'.order).2

inductive Mirrored (before : Report) (n : Nat) :
    Except RunError (Flow × RunState α) → Except RunError (Flow × RunState α) → Prop where
  | error (e : RunError) : Mirrored before n (.error (e.down n)) (.error e)
  | ok (flow : Flow) {cursor : Cursor α} {t : RunState α} (h : cursor.Alike t.cursor) :
    Mirrored before n (.ok (flow, t.behind before n cursor)) (.ok (flow, t))

theorem RunSetup.compareSection_alike {s t : RunState α} (h : s.cursor.Alike t.cursor)
    (kind : SectionKind) (expected : String) :
    (compareSection s kind expected).1 = (compareSection t kind expected).1
      ∧ (compareSection s kind expected).2.Alike (compareSection t kind expected).2 := by
  cases kind with
  | diagram => exact ⟨Comparison.checkDiagram_alike h.current expected, h⟩
  | constituents => exact ⟨Comparison.checkConstituents_alike h.current expected, h⟩
  | wordPositions => exact Comparison.checkPositions_alike h expected

namespace RunSetup.Mirrors

variable {r r' : RunSetup α} {before : Report} {n : Nat} {cursor : Cursor α} {t : RunState α}
  {l : Line}

theorem fault (hm : r.Mirrors r') (number : Nat) (f : RunFault) :
    Mirrored before n (.error (r.fault (number + n) f) : Except RunError (Flow × RunState α))
      (.error (r'.fault number f)) := by
  rw [RunSetup.fault, hm.path]
  exact .error ⟨r'.path, number, f⟩

omit [Linkage α] in
theorem fail_behind (h : cursor.ordinal = t.cursor.ordinal) (path : String) (number : Nat)
    (kind : Mismatch) : (t.behind before n cursor).fail path (number + n) kind =
      (t.fail path number kind).behind before n cursor := by
  simp only [RunState.fail, RunState.behind, Report.behind, h, List.map_append, List.append_assoc,
    Nat.add_assoc]
  rfl

theorem record (hm : r.Mirrors r') (h : cursor.Alike t.cursor) (number : Nat)
    (outcome : Except Mismatch Unit) :
    Mirrored before n (.ok (r.record (t.behind before n cursor) (number + n) outcome))
      (.ok (r'.record t number outcome)) := by
  rcases outcome with kind | ⟨⟩
  · rw [RunSetup.record, RunSetup.record, fail_behind h.ordinal, hm.path, hm.stopOnFailure]
    exact .ok _ h
  · exact .ok .goOn (t := t.pass) h

theorem directive (hm : r.Mirrors r') (h : cursor.Alike t.cursor)
    (hdirect : l.direct r.baseline t.options = l.direct r'.baseline t.options) :
    Mirrored before n (r.directive (t.behind before n cursor) (l.down n)) (r'.directive t l) := by
  have hsame : (l.down n).direct r.baseline (t.behind before n cursor).options =
    l.direct r'.baseline t.options := hdirect
  rcases hother : l.direct r'.baseline t.options with e | o
  · rw [r'.directive_of_error l hother, r.directive_of_error (l.down n) (hsame.trans hother)]
    exact hm.fault l.number (.directive e)
  · rw [r'.directive_of_ok l hother, r.directive_of_ok (l.down n) (hsame.trans hother)]
    exact .ok (t := { t with options := o }) .goOn h

theorem sentence (hm : r.Mirrors r') :
    Mirrored before n (r.sentence (t.behind before n cursor) (l.down n)) (r'.sentence t l) := by
  have hstarts := hm.start cursor t.cursor l.sentenceText t.options
  rcases hstart : cursor.start r.dictionary l.sentenceText t.options r.order with ⟨result, c⟩
  rcases hother : t.cursor.start r'.dictionary l.sentenceText t.options r'.order with ⟨result', c'⟩
  rw [hstart, hother] at hstarts
  obtain ⟨hresult, halike⟩ := hstarts
  obtain rfl : result = result' := hresult
  rcases result with e | ⟨⟩
  · rw [r'.sentence_of_error l hother, r.sentence_of_error (l.down n) hstart]
    exact hm.fault l.number (.engine e)
  · rw [r'.sentence_of_ok l hother, r.sentence_of_ok (l.down n) hstart]
    exact .ok .goOn (t := { t with
      sections := t.sections.startAll
      skipping := false
      sentence := some l.sentenceText
      cursor := c'
      report := { t.report with sentences := t.report.sentences + 1 } }) halike

theorem nextLinkage (hm : r.Mirrors r') (h : cursor.Alike t.cursor) :
    Mirrored before n (r.nextLinkage (t.behind before n cursor) (l.down n))
      (r'.nextLinkage t l) := by
  have hstarted : (t.behind before n cursor).cursor.isStarted = t.cursor.isStarted := h.isStarted
  rw [RunSetup.nextLinkage, RunSetup.nextLinkage, hstarted]
  split
  · exact hm.fault l.number .nextWithoutSentence
  · change Mirrored before n
      (if t.skipping then _ else if cursor.advance.current.isSome then _ else _)
      (if t.skipping then _ else if t.cursor.advance.current.isSome then _ else _)
    rw [h.advance.isSome_current]
    split
    · exact .ok .goOn (t := { t with sections := t.sections.startAll }) h
    · split
      · exact .ok .goOn (t := { t with
          sections := t.sections.startAll
          cursor := t.cursor.advance }) h.advance
      · exact hm.record (t := { t with
          sections := t.sections.startAll
          cursor := t.cursor.advance }) h.advance l.number _

theorem sectionLine (hm : r.Mirrors r') (h : cursor.Alike t.cursor) (kind : SectionKind) :
    Mirrored before n (r.sectionLine (t.behind before n cursor) kind (l.down n))
      (r'.sectionLine t kind l) := by
  have hfeed : (t.behind before n cursor).sections.feed kind (l.down n).text =
    t.sections.feed kind l.text := rfl
  rw [RunSetup.sectionLine, RunSetup.sectionLine, hfeed]
  rcases t.sections.feed kind l.text with ⟨_ | _ | expected | _, sections⟩
  · exact .ok .goOn (t := { t with sections }) h
  · change Mirrored before n (if t.skipping then _ else _) (if t.skipping then _ else _)
    split
    · exact .ok .goOn (t := { t with sections }) h
    · change Mirrored before n
        (.ok (r.record _ (l.number + n) (Comparison.checkNone cursor.current))) _
      rw [Comparison.checkNone_alike h.current]
      exact hm.record (t := { t with sections }) h l.number _
  · change Mirrored before n (if t.skipping then _ else _) (if t.skipping then _ else _)
    split
    · exact .ok .goOn (t := { t with sections }) h
    · have hcompare := compareSection_alike (s := { t.behind before n cursor with sections })
        (t := { t with sections }) h kind expected
      revert hcompare
      generalize compareSection { t.behind before n cursor with sections } kind expected = compared
      generalize compareSection { t with sections } kind expected = compared'
      rcases compared with ⟨outcome, c⟩
      rcases compared' with ⟨outcome', c'⟩
      rintro ⟨houtcome, halike⟩
      obtain rfl : outcome = outcome' := houtcome
      exact hm.record (t := { t with sections, cursor := c' }) halike l.number outcome
  · exact hm.fault l.number (.lineOutsideSection kind)

theorem line (hm : r.Mirrors r') (h : l.opcode ≠ .sentence → cursor.Alike t.cursor)
    (hdirect : l.opcode = .directive →
      l.direct r.baseline t.options = l.direct r'.baseline t.options) :
    Mirrored before n (r.line (t.behind before n cursor) (l.down n)) (r'.line t l) := by
  have hcheck : (t.behind before n cursor).validator.check (t.behind before n cursor).sections
    (l.down n).opcode = t.validator.check t.sections l.opcode := rfl
  have hsame : (l.down n).opcode = l.opcode := rfl
  rw [RunSetup.line, RunSetup.line, hcheck]
  rcases t.validator.check t.sections l.opcode with e | validator
  · exact hm.fault l.number (.validation e)
  · simp only [hsame]
    cases hopcode : l.opcode with
    | comment =>
      have halike := h (by rw [hopcode]; decide)
      exact .ok .goOn (t := { t with validator, lastLine := l.number }) halike
    | directive =>
      have halike := h (by rw [hopcode]; decide)
      exact hm.directive (t := { t with validator, lastLine := l.number }) halike (hdirect hopcode)
    | sentence => exact hm.sentence (t := { t with validator, lastLine := l.number })
    | next =>
      have halike := h (by rw [hopcode]; decide)
      exact hm.nextLinkage (t := { t with validator, lastLine := l.number }) halike
    | diagram =>
      have halike := h (by rw [hopcode]; decide)
      exact hm.sectionLine (t := { t with validator, lastLine := l.number }) halike .diagram
    | constituents =>
      have halike := h (by rw [hopcode]; decide)
      exact hm.sectionLine (t := { t with validator, lastLine := l.number }) halike .constituents
    | wordPositions =>
      have halike := h (by rw [hopcode]; decide)
      exact hm.sectionLine (t := { t with validator, lastLine := l.number }) halike .wordPositions

theorem finish (hm : r.Mirrors r') :
    r.finish (t.behind before n cursor) = (r'.finish t).behind before n := by
  have hcheck : (t.behind before n cursor).validator.finish (t.behind before n cursor).sections =
    t.validator.finish t.sections := rfl
  rw [RunSetup.finish, RunSetup.finish, hcheck]
  rcases t.validator.finish t.sections with e | ⟨⟩
  · change RunOutcome.mk (.error (r.fault (t.lastLine + n) (.validation e))) t.options = _
    rw [RunSetup.fault, hm.path]
    rfl
  · rfl

theorem lines (hm : r.Mirrors r') {items : List (Except ScanError Line)}
    (h : (∃ l, items.head? = some (.ok l) ∧ l.opcode = .sentence) ∨ cursor.Alike t.cursor)
    (hdirect : ∀ l, .ok l ∈ items → l.opcode = .directive →
      ∀ o, l.direct r.baseline o = l.direct r'.baseline o) :
    r.lines (t.behind before n cursor) (items.map (itemDown n)) =
      (r'.lines t items).behind before n := by
  induction items generalizing t cursor with
  | nil => exact hm.finish
  | cons item items ih =>
    rcases item with e | l
    · change RunOutcome.mk (.error (r.fault (e.number + n) _)) _ = _
      rw [RunSetup.fault, hm.path]
      rfl
    -- cursors that differ at first are alike behind the sentence that the items begin with
    · have halike : l.opcode ≠ .sentence → cursor.Alike t.cursor := by
        intro hne
        refine h.resolve_left fun ⟨m, hhead, hopcode⟩ => hne ?_
        cases hhead
        exact hopcode
      have hline : Mirrored before n (r.line (t.behind before n cursor) (l.down n)) (r'.line t l) :=
        hm.line halike fun hopcode => hdirect l List.mem_cons_self hopcode t.options
      rw [List.map_cons, itemDown, RunSetup.lines, RunSetup.lines]
      revert hline
      generalize r.line (t.behind before n cursor) (l.down n) = step
      generalize r'.line t l = step'
      rintro (e | ⟨_ | _, halike'⟩)
      · rfl
      · exact ih (.inr halike') fun m hm => hdirect m (List.mem_cons_of_mem _ hm)
      · rfl

end RunSetup.Mirrors

/-! ### Behind no lines at all -/

theorem itemDown_zero (item : Except ScanError Line) : itemDown 0 item = item := by
  rcases item with e | l
  · rfl
  · rfl

theorem Report.behind_empty (report : Report) (path : String) :
    report.behind (.empty path) 0 = report := by
  have hsame : (fun f : CheckFailure => f.down 0) = id := rfl
  simp only [behind, empty, Nat.zero_add, List.nil_append, hsame, List.map_id]

theorem RunOutcome.behind_empty (outcome : RunOutcome) (path : String) :
    outcome.behind (.empty path) 0 = outcome := by
  rcases outcome with ⟨e | report, options⟩
  · rfl
  · exact congrArg (fun report => RunOutcome.mk (.ok report) options) (report.behind_empty path)

theorem RunSetup.Mirrors.lines_initial {r r' : RunSetup α} (hm : r.Mirrors r')
    (hbaseline : r.baseline = r'.baseline) (path : String) (o : Options)
    (items : List (Except ScanError Line)) :
    r.lines (.initial path o) items = r'.lines (.initial path o) items := by
  have halike : Cursor.idle.Alike (RunState.initial path o : RunState α).cursor :=
    Cursor.alike_of_standing rfl
  have hlines : r.lines ((RunState.initial path o).behind (.empty path) 0 .idle)
      (items.map (itemDown 0)) = (r'.lines (.initial path o) items).behind (.empty path) 0 :=
    hm.lines (.inr halike) fun l _ _ o => by rw [hbaseline]
  have hitems : items.map (itemDown 0) = items := by
    rw [List.map_congr_left fun item _ => itemDown_zero item, List.map_id']
  rwa [hitems, RunOutcome.behind_empty] at hlines

end LinkageCheck
