import LinkageCheck.Proofs.Run.Outline

/-! A line of a run in two parts: the step of its outline, and the comparison or the parse that this
step calls for. -/

namespace LinkageCheck

variable {α : Type} [Linkage α]

def Closing.compare (c : Cursor α) (kind : SectionKind) :
    Closing → Except Mismatch Unit × Cursor α
  | noLinkage => (Comparison.checkNone c.current, c)
  | text expected =>
    match kind with
    | .diagram => (Comparison.checkDiagram c.current expected, c)
    | .constituents => (Comparison.checkConstituents c.current expected, c)
    | .wordPositions => Comparison.checkPositions c expected

namespace RunState

def outline (s : RunState α) : Outline :=
  ⟨s.options, s.sections.collected, s.validator.lastRecord, s.cursor.isStarted, s.lastLine,
    s.report.sentences⟩

def arrive (s : RunState α) (l : Line) : RunState α :=
  { s with validator := ⟨(s.outline.arrive l).lastRecord⟩, lastLine := l.number }

def follow (s : RunState α) (out : Outline) : RunState α :=
  { s with
    options := out.options
    sections := .ofCollected out.collected
    validator := ⟨out.lastRecord⟩
    lastLine := out.lastLine }

end RunState

namespace RunSetup

def settle (r : RunSetup α) (s : RunState α) (number : Nat) :
    Event → Except RunError (Flow × RunState α)
  | .quiet => .ok (.goOn, s)
  | .sentence text =>
    match s.cursor.start r.dictionary text s.options r.order with
    | (.error e, _) => .error (r.fault number (.engine e))
    | (.ok (), cursor) =>
      .ok (.goOn, { s with
        skipping := false
        sentence := some text
        cursor
        report := { s.report with sentences := s.report.sentences + 1 } })
  | .next =>
    if s.skipping then .ok (.goOn, s)
    else
      let s := { s with cursor := s.cursor.advance }
      if s.cursor.current.isSome then .ok (.goOn, s)
      else .ok (r.record s number (.error .tooFewLinkages))
  | .closed kind closing =>
    if s.skipping then .ok (.goOn, s)
    else
      let compared := closing.compare s.cursor kind
      .ok (r.record { s with cursor := compared.2 } number compared.1)

end RunSetup

/-! ### The two parts of a line -/

namespace RunState

omit [Linkage α]

theorem follow_outline {s : RunState α} (hs : s.sections.WellPlaced) : s.follow s.outline = s := by
  rw [follow, outline, ← hs.eq_ofCollected]

theorem check_outline (s : RunState α) (l : Line) :
    s.validator.check s.sections l.opcode = match s.outline.unfinished? l.opcode with
      | some kind => .error (.unfinished kind)
      | none => .ok ⟨(s.outline.arrive l).lastRecord⟩ := by
  have hpending : s.outline.pending = s.sections.pending := rfl
  rw [Validator.check, Outline.unfinished?, hpending]
  cases s.sections.pending.find? fun kind => l.opcode.section? != some kind with
  | some kind => rfl
  | none =>
    simp only [Outline.arrive, outline]
    split <;> rfl

end RunState

namespace RunSetup

variable (r : RunSetup α) {s : RunState α} (l : Line)

def twoParts (s : RunState α) (part : Except RunFault (Outline × Event)) (number : Nat) :
    Except RunError (Flow × RunState α) :=
  match part with
  | .error f => .error (r.fault number f)
  | .ok (out, event) => r.settle (s.follow out) number event

theorem sectionLine_eq (hs : s.sections.WellPlaced) (kind : SectionKind) :
    r.sectionLine s kind l = r.twoParts s (s.outline.sectionStep kind l.text) l.number := by
  rw [sectionLine, Outline.sectionStep]
  rcases h : s.sections.collected kind with _ | earlier
  · have hfeed := Sections.feed_of_closed h l.text
    simp only [RunState.outline, h]
    rcases hf : s.sections.feed kind l.text with ⟨feed, sections⟩
    obtain rfl : feed = .notOpen := by
      rw [← hfeed, hf]
    rfl
  · rw [Sections.feed_of_open hs h]
    simp only [RunState.outline, h]
    rcases kind.closing? earlier l.text with _ | _ | expected
    · rfl
    · rfl
    · cases kind <;> rfl

omit [Linkage α] in
theorem directive_of_error {e : Directive.Error} (h : l.direct r.baseline s.options = .error e) :
    r.directive s l = .error (r.fault l.number (.directive e)) := by
  rw [Line.direct] at h
  simp only [directive, h]

omit [Linkage α] in
theorem directive_of_ok {o : Options} (h : l.direct r.baseline s.options = .ok o) :
    r.directive s l = .ok (.goOn, { s with options := o }) := by
  rw [Line.direct] at h
  simp only [directive, h]

theorem directive_eq (hs : s.sections.WellPlaced) (hopcode : l.opcode = .directive) :
    r.directive s l = r.twoParts s (s.outline.act r.baseline l) l.number := by
  rw [Outline.act, hopcode]
  simp only [RunState.outline]
  rcases hdirect : l.direct r.baseline s.options with e | o
  · exact r.directive_of_error l hdirect
  · rw [r.directive_of_ok l hdirect]
    simp only [twoParts, settle, RunState.follow, ← hs.eq_ofCollected]

theorem sentence_of_error {e : EngineError} {cursor : Cursor α}
    (h : s.cursor.start r.dictionary l.sentenceText s.options r.order = (.error e, cursor)) :
    r.sentence s l = .error (r.fault l.number (.engine e)) := by
  rw [Line.sentenceText] at h
  simp only [sentence, h]

theorem sentence_of_ok {cursor : Cursor α}
    (h : s.cursor.start r.dictionary l.sentenceText s.options r.order = (.ok (), cursor)) :
    r.sentence s l = .ok (.goOn, { s with
      sections := s.sections.startAll
      skipping := false
      sentence := some l.sentenceText
      cursor
      report := { s.report with sentences := s.report.sentences + 1 } }) := by
  rw [Line.sentenceText] at h ⊢
  simp only [sentence, h]

theorem sentence_eq (hs : s.sections.WellPlaced) (hopcode : l.opcode = .sentence) :
    r.sentence s l = r.twoParts s (s.outline.act r.baseline l) l.number := by
  have hreopen := Sections.startAll_eq_ofCollected hs
  rw [sentence, hreopen, Outline.act, hopcode]
  rfl

theorem nextLinkage_eq (hs : s.sections.WellPlaced) (hopcode : l.opcode = .next) :
    r.nextLinkage s l = r.twoParts s (s.outline.act r.baseline l) l.number := by
  have hreopen := Sections.startAll_eq_ofCollected hs
  rw [nextLinkage, hreopen, Outline.act, hopcode]
  rcases h : s.cursor.isStarted with _ | _
  · simp only [RunState.outline, h]
    rfl
  · simp only [RunState.outline, h]
    rfl

/-- A line is a step of the outline, and then what that step calls for. -/
theorem line_eq (hs : s.sections.WellPlaced) :
    r.line s l = r.twoParts s (s.outline.step r.baseline l) l.number := by
  have harrived : (s.arrive l).sections.WellPlaced := hs
  rw [line, RunState.check_outline, Outline.step]
  -- the two checks of the place of a line agree; behind them there is one case for each opcode
  rcases s.outline.unfinished? l.opcode with _ | kind
  · change _ = r.twoParts (s.arrive l) ((s.arrive l).outline.act r.baseline l) l.number
    cases hopcode : l.opcode with
    | comment =>
      rw [Outline.act, hopcode]
      exact congrArg (fun state => Except.ok (Flow.goOn, state))
        (RunState.follow_outline harrived).symm
    | directive => exact r.directive_eq l harrived hopcode
    | sentence => exact r.sentence_eq l harrived hopcode
    | next => exact r.nextLinkage_eq l harrived hopcode
    | diagram =>
      rw [Outline.act, hopcode]
      exact r.sectionLine_eq l harrived .diagram
    | constituents =>
      rw [Outline.act, hopcode]
      exact r.sectionLine_eq l harrived .constituents
    | wordPositions =>
      rw [Outline.act, hopcode]
      exact r.sectionLine_eq l harrived .wordPositions
  · rfl

end RunSetup

/-! ### What comparisons leave alone -/

theorem Cursor.isStarted_advance (c : Cursor α) : c.advance.isStarted = c.isStarted := by
  rcases c with ⟨_ | ⟨sequence, _ | linkage, index⟩, earlier⟩ <;> rfl

theorem Comparison.isStarted_search (expected : String) (tried : Nat) (c : Cursor α) (current : α)
    (hcurrent : c.current = some current) :
    (search expected tried c current hcurrent).2.isStarted = c.isStarted := by
  fun_induction search expected tried c current hcurrent with
  | case1 tried c current hcurrent hnone => exact c.isStarted_advance
  | case2 tried c current hcurrent linkage hsome heq => exact c.isStarted_advance
  | case3 tried c current hcurrent linkage hsome hne ih => exact ih.trans c.isStarted_advance

theorem Comparison.isStarted_checkPositions (c : Cursor α) (expected : String) :
    (checkPositions c expected).2.isStarted = c.isStarted := by
  rw [checkPositions]
  split
  · rfl
  · simp only
    split
    · rfl
    · exact isStarted_search _ _ _ _ _

theorem Closing.isStarted_compare (closing : Closing) (c : Cursor α) (kind : SectionKind) :
    (closing.compare c kind).2.isStarted = c.isStarted := by
  cases closing with
  | noLinkage => rfl
  | text expected =>
    cases kind with
    | diagram => rfl
    | constituents => rfl
    | wordPositions => exact Comparison.isStarted_checkPositions c expected

namespace RunSetup

variable {r : RunSetup α} {s s' : RunState α} {out : Outline} {event : Event} {flow : Flow}
  {number : Nat}

omit [Linkage α] in
theorem outline_record (r : RunSetup α) (s : RunState α) (number : Nat)
    (outcome : Except Mismatch Unit) :
    (r.record s number outcome).2.outline = s.outline
      ∧ (r.record s number outcome).2.sections = s.sections := by
  cases outcome <;> exact ⟨rfl, rfl⟩

omit [Linkage α] in
theorem outline_moved (s : RunState α) {cursor : Cursor α}
    (h : cursor.isStarted = s.cursor.isStarted) :
    ({ s with cursor } : RunState α).outline = s.outline := by
  rw [RunState.outline, RunState.outline, h]

inductive Effect (r : RunSetup α) (s : RunState α) (number : Nat) :
    Event → Flow × RunState α → Prop where
  | sentence {text : String} {candidates : Candidates α}
    (hparse : r.dictionary.parse text s.options = .ok candidates) :
    Effect r s number (.sentence text) (.goOn, { s with
      skipping := false
      sentence := some text
      cursor := (s.cursor.start r.dictionary text s.options r.order).2
      report := { s.report with sentences := s.report.sentences + 1 } })
  | keep {event : Event} {cursor : Cursor α} (hevent : ∀ text, event ≠ .sentence text)
    (hcursor : cursor.isStarted = s.cursor.isStarted) :
    Effect r s number event (.goOn, { s with cursor })
  | record {event : Event} {cursor : Cursor α} (outcome : Except Mismatch Unit)
    (hevent : ∀ text, event ≠ .sentence text) (hnoisy : event ≠ .quiet)
    (hcursor : cursor.isStarted = s.cursor.isStarted) (hgoing : s.skipping = false) :
    Effect r s number event (r.record { s with cursor } number outcome)

theorem settle_cases {step : Flow × RunState α} (h : r.settle s number event = .ok step) :
    Effect r s number event step := by
  cases event with
  | quiet =>
    cases h
    exact .keep (fun _ => Event.noConfusion) rfl
  | sentence text =>
    rw [settle] at h
    rcases hparse : r.dictionary.parse text s.options with e | candidates
    · simp only [Cursor.start, hparse] at h
      cases h
    · have heffect : Effect r s number (.sentence text) _ := .sentence hparse
      simp only [Cursor.start, hparse] at h heffect
      cases h
      exact heffect
  | next =>
    have hadvance := s.cursor.isStarted_advance
    rw [settle] at h
    by_cases hskip : s.skipping = true
    · rw [if_pos hskip] at h
      cases h
      exact .keep (fun _ => Event.noConfusion) rfl
    · rw [if_neg hskip] at h
      simp only at h
      split at h
      · cases h
        exact .keep (fun _ => Event.noConfusion) hadvance
      · obtain rfl := Except.ok.inj h
        exact .record _ (fun _ => Event.noConfusion) Event.noConfusion hadvance
          (Bool.eq_false_iff.mpr hskip)
  | closed kind closing =>
    rw [settle] at h
    by_cases hskip : s.skipping = true
    · rw [if_pos hskip] at h
      cases h
      exact .keep (fun _ => Event.noConfusion) rfl
    · rw [if_neg hskip] at h
      obtain rfl := Except.ok.inj h
      exact .record _ (fun _ => Event.noConfusion) Event.noConfusion
        (closing.isStarted_compare s.cursor kind) (Bool.eq_false_iff.mpr hskip)

theorem Effect.keeps {step : Flow × RunState α} (h : Effect r s number event step)
    (hevent : ∀ text, event ≠ .sentence text) :
    step.2.outline = s.outline ∧ step.2.sections = s.sections := by
  cases h with
  | sentence => exact absurd rfl (hevent _)
  | keep _ hcursor => exact ⟨outline_moved s hcursor, rfl⟩
  | record outcome _ _ hcursor =>
    obtain ⟨houtline, hsections⟩ := r.outline_record { s with cursor := _ } number outcome
    exact ⟨houtline.trans (outline_moved s hcursor), hsections⟩

omit [Linkage α] in
theorem outline_follow (s : RunState α) (out : Outline) :
    (s.follow out).outline =
      { out with started := s.cursor.isStarted, sentences := s.report.sentences } := by
  rw [RunState.outline, RunState.follow]
  simp only [Sections.collected_ofCollected]

theorem settle_sentence {text : String} (h : r.settle s number (.sentence text) = .ok (flow, s')) :
    ∃ candidates, r.dictionary.parse text s.options = .ok candidates ∧ flow = .goOn
      ∧ s' = { s with
        skipping := false
        sentence := some text
        cursor := (s.cursor.start r.dictionary text s.options r.order).2
        report := { s.report with sentences := s.report.sentences + 1 } }
      ∧ s'.outline = { s.outline with started := true, sentences := s.report.sentences + 1 } := by
  rw [settle] at h
  rcases hparse : r.dictionary.parse text s.options with e | candidates
  · simp only [Cursor.start, hparse] at h
    cases h
  · simp only [Cursor.start, hparse] at h ⊢
    cases h
    exact ⟨candidates, rfl, rfl, rfl, rfl⟩

theorem settle_outline {l : Line} (hact : Outline.Act r.baseline (s.outline.arrive l) l out event)
    (h : r.settle (s.follow out) number event = .ok (flow, s')) :
    s'.outline = out ∧ s'.sections.WellPlaced := by
  have hplaced := Sections.wellPlaced_ofCollected out.collected
  -- only a sentence starts the cursor and is counted
  have keep : (∀ text, event ≠ .sentence text) → out.started = s.cursor.isStarted →
      out.sentences = s.report.sentences → s'.outline = out ∧ s'.sections.WellPlaced := by
    intro hevent hstarted hsentences
    obtain ⟨houtline, hsections⟩ := (settle_cases h).keeps hevent
    rw [houtline, outline_follow, ← hstarted, ← hsentences, hsections]
    exact ⟨rfl, hplaced⟩
  cases hact with
  | comment => exact keep (fun _ => Event.noConfusion) rfl rfl
  | directive => exact keep (fun _ => Event.noConfusion) rfl rfl
  | sentence hopcode =>
    obtain ⟨-, -, -, hs', houtline⟩ := settle_sentence h
    rw [houtline, outline_follow, hs']
    exact ⟨rfl, hplaced⟩
  | next => exact keep (fun _ => Event.noConfusion) rfl rfl
  | collect => exact keep (fun _ => Event.noConfusion) rfl rfl
  | close => exact keep (fun _ => Event.noConfusion) rfl rfl

theorem Effect.report {step : Flow × RunState α} (h : Effect r s number event step) :
    step.2.report.path = s.report.path ∧ step.2.report.stoppedEarly = s.report.stoppedEarly := by
  cases h with
  | sentence => exact ⟨rfl, rfl⟩
  | keep => exact ⟨rfl, rfl⟩
  | record outcome => rcases outcome with kind | ⟨⟩ <;> exact ⟨rfl, rfl⟩

theorem Effect.failures {step : Flow × RunState α} (h : Effect r s number event step) :
    (step.1 = .goOn ∧ step.2.report.failures = s.report.failures)
      ∨ ∃ f, step.1 = (if r.stopOnFailure then .stop else .goOn) ∧ f.line = number
        ∧ step.2.report.failures = s.report.failures ++ [f] := by
  cases h with
  | sentence => exact .inl ⟨rfl, rfl⟩
  | keep => exact .inl ⟨rfl, rfl⟩
  | record outcome =>
    rcases outcome with kind | ⟨⟩
    · exact .inr ⟨_, rfl, rfl, rfl⟩
    · exact .inl ⟨rfl, rfl⟩

theorem settle_goOn (hoff : r.stopOnFailure = false)
    (h : r.settle s number event = .ok (flow, s')) : flow = .goOn := by
  rcases (settle_cases h).failures with ⟨hflow, -⟩ | ⟨f, hflow, -⟩
  · exact hflow
  · rwa [hoff, if_neg Bool.false_ne_true] at hflow

/-- What a line that is taken does: a step of the outline, and what carrying it out can do. -/
structure LineEffect (r : RunSetup α) (s : RunState α) (l : Line) (step : Flow × RunState α)
    (out : Outline) (event : Event) : Prop where
  inPlace : s.outline.unfinished? l.opcode = none
  act : Outline.Act r.baseline (s.outline.arrive l) l out event
  effect : Effect r (s.follow out) l.number event step
  outline_eq : step.2.outline = out
  wellPlaced : step.2.sections.WellPlaced

theorem line_eq_settle {l : Line} (hs : s.sections.WellPlaced)
    (hfree : s.outline.unfinished? l.opcode = none)
    (hact : Outline.Act r.baseline (s.outline.arrive l) l out event) :
    r.line s l = r.settle (s.follow out) l.number event := by
  rw [r.line_eq l hs, Outline.step_eq_ok_iff.mpr ⟨hfree, hact⟩]
  rfl

theorem LineEffect.settled {l : Line} {step : Flow × RunState α}
    (h : LineEffect r s l step out event) (hs : s.sections.WellPlaced)
    (hline : r.line s l = .ok step) : r.settle (s.follow out) l.number event = .ok step := by
  rw [← line_eq_settle hs h.inPlace h.act]
  exact hline

theorem LineEffect.failures {l : Line} {step : Flow × RunState α}
    (h : LineEffect r s l step out event) :
    (step.1 = .goOn ∧ step.2.report.failures = s.report.failures)
      ∨ ∃ f, step.1 = (if r.stopOnFailure then .stop else .goOn) ∧ f.line = l.number
        ∧ step.2.report.failures = s.report.failures ++ [f] :=
  h.effect.failures

theorem line_effect {l : Line} {step : Flow × RunState α} (hs : s.sections.WellPlaced)
    (h : r.line s l = .ok step) : ∃ out event, LineEffect r s l step out event := by
  rw [r.line_eq l hs] at h
  rcases hstep : s.outline.step r.baseline l with f | ⟨out, event⟩
  · rw [hstep] at h
    cases h
  · rw [hstep, twoParts] at h
    obtain ⟨hplace, hact⟩ := Outline.step_eq_ok_iff.mp hstep
    obtain ⟨houtline, hplaced⟩ := settle_outline hact h
    exact ⟨out, event, hplace, hact, settle_cases h, houtline, hplaced⟩

end RunSetup

end LinkageCheck
