import LinkageCheck.Proofs.Record.Refinement
import LinkageCheck.Proofs.Run.Grammar
import LinkageCheck.Proofs.Run.Reached

/-! The mark for no linkage speaks of the sentence and not of the cursor. A cursor that has run dry
stands in a record that failed, or its sentence has no candidates: whatever uses the candidates up
is a failure, and what a failed record says is passed over. -/

namespace LinkageCheck

variable {α : Type} [Linkage α]

theorem CandidateOrder.arrange_eq_nil {order : CandidateOrder} {xs : List α} :
    order.arrange xs = [] ↔ xs = [] := by
  cases order with
  | engine => rfl
  | equalCost =>
    show sortRuns xs = [] ↔ xs = []
    rcases xs with _ | ⟨a, xs⟩
    · simp [sortRuns]
    · have hrun := EqualCost.sortByDiagram_ne_nil a (xs.takeWhile (tied · a))
      simp [sortRuns_cons, hrun]

def Supplied (xs : List α) (i : Nat) : Prop := xs = [] ∨ i < xs.length

theorem supplied_judge {xs : List α} {i : Nat} (h : Supplied xs i) (event : Event)
    (hheld : ∀ kind, (judge xs i event).1 ≠ some (.error kind)) :
    Supplied xs (judge xs i event).2 := by
  cases event with
  | quiet => exact h
  | sentence text => exact h
  | next =>
    simp only [judge] at hheld ⊢
    by_cases hlast : min (i + 1) xs.length = xs.length
    · rw [if_pos hlast] at hheld
      exact absurd rfl (hheld .tooFewLinkages)
    · right
      omega
  | closed kind closing =>
    cases closing with
    | noLinkage => exact h
    | text expected =>
      rcases hplace : xs[i]? with _ | linkage
      · rw [judge, hplace] at hheld
        exact absurd rfl (hheld (.noLinkage kind))
      · rw [judge, hplace] at hheld ⊢
        cases kind with
        | diagram => exact h
        | constituents => exact h
        | wordPositions =>
          by_cases hmark : Comparison.isMarked expected = true
          · simp only [hmark, if_true] at hheld ⊢
            by_cases hfound : Comparison.firstMatch expected xs i < xs.length
            · exact .inr hfound
            · rw [if_neg hfound] at hheld
              exact absurd rfl (hheld _)
          · simp only [hmark] at hheld ⊢
            exact h

namespace RunSetup

variable {r : RunSetup α} {s s' : RunState α} {l : Line} {ls : List Line}

/-- Behind the lines `ls` the cursor stands among the candidates of the last sentence, and unless
the record has failed it has not used them up. -/
def AmongCandidates (r : RunSetup α) (ls : List Line) (s : RunState α) : Prop :=
  ∃ before first body candidates i, ls = before ++ first :: body ∧ first.opcode = .sentence
    ∧ (∀ m ∈ body, m.opcode ≠ .sentence)
    ∧ r.dictionary.parse first.sentenceText (optionsBehind r.baseline before) = .ok candidates
    ∧ s.cursor.At (r.order.arrange candidates.toList) i
    ∧ (s.skipping = false → Supplied (r.order.arrange candidates.toList) i)

structure Tracks (r : RunSetup α) (ls : List Line) (s : RunState α) : Prop where
  wellPlaced : s.sections.WellPlaced
  sound : s.outline.Sound
  options : s.options = optionsBehind r.baseline ls
  among : s.cursor.isStarted = true → r.AmongCandidates ls s

theorem tracks_initial (r : RunSetup α) (path : String) :
    r.Tracks [] (.initial path r.baseline) where
  wellPlaced := Sections.wellPlaced_closed
  sound := by
    rw [RunState.outline_initial]
    exact sound_initial r.baseline
  options := rfl
  among := fun hstarted => absurd hstarted Bool.false_ne_true

theorem settle_supplied {xs : List α} {i : Nat} (hcursor : s.cursor.At xs i)
    (hsupplied : s.skipping = false → Supplied xs i) {number : Nat} {event : Event}
    (hevent : ∀ text, event ≠ .sentence text) {step : Flow × RunState α}
    (h : r.settle s number event = .ok step) :
    ∃ j, step.2.cursor.At xs j ∧ (step.2.skipping = false → Supplied xs j) := by
  rcases hskip : s.skipping with _ | _
  · obtain ⟨cursor, hat, hresult⟩ := r.settle_spec hcursor hskip number hevent
    have hinside := supplied_judge (hsupplied hskip) event
    refine ⟨(judge xs i event).2, ?_⟩
    rw [hresult] at h
    rcases hjudge : (judge xs i event).1 with _ | _ | ⟨⟩
    · rw [hjudge] at h hinside
      cases h
      exact ⟨hat, fun _ => hinside (by simp)⟩
    · rw [hjudge] at h
      cases h
      exact ⟨hat, fun hgoing => by cases hgoing⟩
    · rw [hjudge] at h hinside
      cases h
      exact ⟨hat, fun _ => hinside (by simp)⟩
  · rw [r.settle_of_skipping hskip number hevent] at h
    cases h
    exact ⟨i, hcursor, hsupplied⟩

theorem Tracks.options_line (h : r.Tracks ls s) {step : Flow × RunState α}
    (hline : r.line s l = .ok step) : step.2.options = optionsBehind r.baseline (ls ++ [l]) := by
  obtain ⟨out, event, heffect⟩ := line_effect h.wellPlaced hline
  have hout : step.2.options = out.options := congrArg Outline.options heffect.outline_eq
  have hnext : out.options = l.optionsAfter r.baseline s.options := heffect.act.options_eq
  rw [hout, hnext, h.options, optionsBehind, optionsBehind, List.foldl_concat]

theorem Tracks.among_sentence (h : r.Tracks ls s)
    (hfinite : ∀ text o c, r.dictionary.parse text o = .ok c → c.StaysExhausted)
    (hopcode : l.opcode = .sentence) {step : Flow × RunState α} (hline : r.line s l = .ok step) :
    r.AmongCandidates (ls ++ [l]) step.2 := by
  obtain ⟨out, event, heffect⟩ := line_effect h.wellPlaced hline
  have hsettle := heffect.settled h.wellPlaced hline
  obtain ⟨rfl, rfl⟩ := heffect.act.of_sentence hopcode
  obtain ⟨candidates, hparse, -, hstep, -⟩ := settle_sentence hsettle
  obtain ⟨-, hat⟩ := s.cursor.at_start r.order hparse (hfinite _ _ _ hparse)
  have hrequest : r.dictionary.parse l.sentenceText (optionsBehind r.baseline ls) =
      .ok candidates := by
    rw [← h.options]
    exact hparse
  refine ⟨ls, l, [], candidates, 0, rfl, hopcode, by simp, hrequest, ?_, fun _ => ?_⟩
  · rw [hstep]
    exact hat
  · rcases r.order.arrange candidates.toList with _ | ⟨a, xs⟩
    · exact .inl rfl
    · exact .inr (Nat.zero_lt_succ _)

theorem Tracks.among_line (h : r.Tracks ls s) (hopcode : l.opcode ≠ .sentence)
    {step : Flow × RunState α} (hline : r.line s l = .ok step)
    (hstarted : step.2.cursor.isStarted = true) : r.AmongCandidates (ls ++ [l]) step.2 := by
  obtain ⟨out, event, heffect⟩ := line_effect h.wellPlaced hline
  have hsettle := heffect.settled h.wellPlaced hline
  have hout : step.2.cursor.isStarted = out.started := congrArg Outline.started heffect.outline_eq
  have hbefore : s.cursor.isStarted = true := by
    rcases heffect.act.started_eq.mp (hout.symm.trans hstarted) with hs | hsentence
    · exact hs
    · exact absurd hsentence hopcode
  obtain ⟨before, first, body, candidates, i, rfl, hfirst, hbody, hparse, hat, hsupplied⟩ :=
    h.among hbefore
  have hevent := heffect.act.event_ne_sentence hopcode
  obtain ⟨j, hat', hsupplied'⟩ :=
    settle_supplied (s := s.follow out) hat hsupplied hevent hsettle
  have hlater : ∀ m ∈ body ++ [l], m.opcode ≠ .sentence :=
    List.forall_mem_append.mpr ⟨hbody, List.forall_mem_singleton.mpr hopcode⟩
  exact ⟨before, first, body ++ [l], candidates, j, by simp, hfirst, hlater, hparse, hat',
    hsupplied'⟩

theorem Tracks.line (h : r.Tracks ls s)
    (hfinite : ∀ text o c, r.dictionary.parse text o = .ok c → c.StaysExhausted)
    {step : Flow × RunState α} (hline : r.line s l = .ok step) : r.Tracks (ls ++ [l]) step.2 := by
  obtain ⟨out, event, heffect⟩ := line_effect h.wellPlaced hline
  have hsound : step.2.outline.Sound := by
    rw [heffect.outline_eq]
    exact heffect.act.sound h.sound
  refine ⟨heffect.wellPlaced, hsound, h.options_line hline, fun hstarted => ?_⟩
  by_cases hopcode : l.opcode = .sentence
  · exact h.among_sentence hfinite hopcode hline
  · exact h.among_line hopcode hline hstarted

theorem Goes.tracks {path : String} (h : r.Goes (.initial path r.baseline) ls s)
    (hfinite : ∀ text o c, r.dictionary.parse text o = .ok c → c.StaysExhausted) :
    r.Tracks ls s := by
  apply h.invariant (I := r.Tracks) [] (r.tracks_initial path)
  intro taken t l next htracks hline
  exact htracks.line hfinite hline

theorem settle_of_noLinkage (hs : s.sections.WellPlaced) (hopcode : l.opcode = .diagram)
    (hmark : (s.sections.feed .diagram l.text).1 = .noLinkage) {step : Flow × RunState α}
    (hline : r.line s l = .ok step) :
    ∃ out, r.settle (s.follow out) l.number (.closed .diagram .noLinkage) = .ok step
      ∧ s.outline.collected .diagram ≠ none := by
  obtain ⟨out, event, heffect⟩ := line_effect hs hline
  have hsettle := heffect.settled hs hline
  rcases hopen : s.sections.collected .diagram with _ | earlier
  · rw [Sections.feed_of_closed hopen] at hmark
    cases hmark
  · rw [Sections.feed_of_open hs hopen] at hmark
    rcases hrule : SectionKind.diagram.closing? earlier l.text with _ | _ | expected
    · rw [hrule] at hmark
      cases hmark
    · have hsection : l.opcode.section? = some .diagram := by rw [hopcode]; rfl
      have hevent : event = .closed .diagram .noLinkage := by
        have hact := Outline.act_of_cases heffect.act
        have hclose : Outline.Act r.baseline (s.outline.arrive l) l _ _ :=
          .close hsection hopen hrule
        rw [Outline.act_of_cases hclose] at hact
        cases hact
        rfl
      rw [hevent] at hsettle
      have hsome : s.outline.collected .diagram = some earlier := hopen
      exact ⟨out, hsettle, by simp [hsome]⟩
    · rw [hrule] at hmark
      cases hmark

theorem settle_noLinkage {xs : List α} {i : Nat} (hcursor : s.cursor.At xs i)
    (hsupplied : Supplied xs i) (hskip : s.skipping = false) {number : Nat}
    {step : Flow × RunState α}
    (h : r.settle s number (.closed .diagram .noLinkage) = .ok step) :
    (xs = [] → step.2.report = s.pass.report)
      ∧ (xs ≠ [] → step.2.report = (s.fail r.path number .unexpectedLinkage).report) := by
  have hcurrent := hcursor.current
  rw [settle, hskip, if_neg Bool.false_ne_true, Closing.compare] at h
  obtain rfl := Except.ok.inj h
  refine ⟨fun hnone => ?_, fun hsome => ?_⟩
  · have hdry : s.cursor.current = none := by
      rw [hcurrent, hnone]
      rfl
    simp only [hdry, Comparison.checkNone]
    rfl
  · have hi : i < xs.length := hsupplied.resolve_left hsome
    have hfound : s.cursor.current = some xs[i] := by
      rw [hcurrent, List.getElem?_eq_getElem hi]
    simp only [hfound, Comparison.checkNone]
    rfl

end RunSetup

/-- Where a run compares the mark for no linkage, the comparison holds if the sentence has no
candidate under the options of its line, and fails if it has one. -/
theorem noLinkage_holds_iff {d : Dictionary α} {order : CandidateOrder} {stopOnFailure : Bool}
    {path : String} {o : Options} {content : List UInt8} {taken : List Line} {s : RunState α}
    {l : Line} {step : Flow × RunState α}
    (hfinite : ∀ text o c, d.parse text o = .ok c → c.StaysExhausted)
    (hreaches : RunSetup.Reaches ⟨d, order, stopOnFailure, path, o⟩ (.initial path o)
      (scan content) taken s)
    (hline : RunSetup.line ⟨d, order, stopOnFailure, path, o⟩ s l = .ok step)
    (hopcode : l.opcode = .diagram) (hmark : (s.sections.feed .diagram l.text).1 = .noLinkage)
    (hcompared : s.skipping = false) :
    ∃ before first body candidates, taken = before ++ first :: body ∧ first.opcode = .sentence
      ∧ (∀ m ∈ body, m.opcode ≠ .sentence)
      ∧ d.parse first.sentenceText (optionsBehind o before) = .ok candidates
      ∧ (step.2.report = s.pass.report ↔ candidates.toList = [])
      ∧ (step.2.report = (s.fail path l.number .unexpectedLinkage).report
        ↔ candidates.toList ≠ []) := by
  have htracks := RunSetup.Goes.tracks hreaches.2 hfinite
  obtain ⟨out, hsettle, hopen⟩ :=
    RunSetup.settle_of_noLinkage htracks.wellPlaced hopcode hmark hline
  have hstarted : s.cursor.isStarted = true := htracks.sound .diagram hopen
  obtain ⟨before, first, body, candidates, i, htaken, hfirst, hbody, hparse, hat, hsupplied⟩ :=
    htracks.among hstarted
  obtain ⟨hnone, hsome⟩ :=
    RunSetup.settle_noLinkage (s := s.follow out) hat (hsupplied hcompared) hcompared hsettle
  rw [ne_eq, CandidateOrder.arrange_eq_nil] at hsome
  rw [CandidateOrder.arrange_eq_nil] at hnone
  have hdiffer : s.pass.report ≠ (s.fail path l.number .unexpectedLinkage).report := by
    intro hsame
    have hpassed := congrArg Report.passed hsame
    simp [RunState.pass, RunState.fail] at hpassed
  refine ⟨before, first, body, candidates, htaken, hfirst, hbody, hparse, ⟨fun hpass => ?_, hnone⟩,
    ⟨fun hfail hempty => ?_, hsome⟩⟩
  · by_contra hfound
    exact hdiffer (hpass.symm.trans (hsome hfound))
  · exact hdiffer ((hnone hempty).symm.trans hfail)

def deniedRecord : List UInt8 := Text.Utf8.encode "Ihi\nN\nOC\nOC\n".toList

theorem noLinkage_holds_iff_trees : ∃ (s : RunState RecordedLinkage) (step : Flow × _),
    s.cursor.ordinal = 2
      ∧ RunSetup.line ⟨ofTrees ["S", "T"], .engine, false, "t", .standard⟩ s ⟨4, .diagram, "C\n"⟩ =
        .ok step
      ∧ step.2.report = (s.fail "t" 4 .unexpectedLinkage).report := by
  let r : RunSetup RecordedLinkage := ⟨ofTrees ["S", "T"], .engine, false, "t", .standard⟩
  let ls : List Line := [⟨1, .sentence, "hi\n"⟩, ⟨2, .next, "\n"⟩, ⟨3, .diagram, "C\n"⟩]
  let l : Line := ⟨4, .diagram, "C\n"⟩
  have hthrough : (r.through (.initial "t" .standard) ls).any (fun s =>
      s.cursor.ordinal = 2 ∧ s.skipping = false
        ∧ (s.sections.feed .diagram l.text).1 = .noLinkage ∧ (r.line s l).isOk = true) = true := by
    decide +kernel
  obtain ⟨s, hs, hstate⟩ := Option.any_eq_true _ _ |>.mp hthrough
  obtain ⟨hordinal, hcompared, hmark, hline⟩ := of_decide_eq_true hstate
  have hfirst : ls.map .ok <+: scan deniedRecord := by decide +kernel
  rcases hstep : r.line s l with e | step
  · rw [hstep] at hline
    cases hline
  · obtain ⟨before, first, body, candidates, -, -, -, hparse, -, hfails⟩ :=
      noLinkage_holds_iff (staysExhausted_ofTrees _) ⟨hfirst, RunSetup.goes_of_through hs⟩ hstep rfl
        hmark hcompared
    cases hparse
    exact ⟨s, step, hordinal, hstep, hfails.mpr (by simp [Candidates.toList_ofList])⟩

end LinkageCheck
