import LinkageCheck.Proofs.Run.Reached

/-! A run that stops at failures is the run that goes on, cut off behind its first failure. -/

namespace LinkageCheck

variable {α : Type} [Linkage α]

namespace RunSetup

def stopping (r : RunSetup α) : RunSetup α := { r with stopOnFailure := true }

def stopAtFailure (s : RunState α) (step : Flow × RunState α) : Flow × RunState α :=
  (if step.2.report.failures = s.report.failures then .goOn else .stop, step.2)

variable {r : RunSetup α} {s s' : RunState α} {l : Line} {event : Event} {number : Nat}
  {items : List (Except ScanError Line)}

omit [Linkage α] in
theorem record_stopping (s t : RunState α) (h : t.report = s.report) (number : Nat)
    (outcome : Except Mismatch Unit) :
    r.stopping.record t number outcome = stopAtFailure s (r.record t number outcome) := by
  have hkept : ∀ fs : List CheckFailure, ∀ f, fs ++ [f] ≠ fs := fun fs f hfs =>
    List.cons_ne_nil f [] (List.append_right_eq_self.mp hfs)
  rcases outcome with kind | ⟨⟩
  · simp only [record, stopAtFailure, stopping, RunState.fail, h, if_neg (hkept _ _), if_true]
  · simp only [record, stopAtFailure, RunState.pass, h, if_true]

theorem settle_stopping (r : RunSetup α) (s : RunState α) (number : Nat) (event : Event) :
    r.stopping.settle s number event =
      (r.settle s number event).map (stopAtFailure s) := by
  have hgo : ∀ t : RunState α, t.report.failures = s.report.failures →
      (Except.ok (.goOn, t) : Except RunError (Flow × RunState α)) =
        (Except.ok (.goOn, t)).map (stopAtFailure s) := by
    intro t ht
    rw [Except.map, stopAtFailure, if_pos ht]
  cases event with
  | quiet => exact hgo s rfl
  | sentence text =>
    simp only [settle, stopping]
    rcases s.cursor.start r.dictionary text s.options r.order with ⟨e | ⟨⟩, cursor⟩
    · rfl
    · exact hgo _ rfl
  | next =>
    simp only [settle]
    split
    · exact hgo s rfl
    · split
      · exact hgo _ rfl
      · exact congrArg Except.ok (record_stopping s { s with cursor := s.cursor.advance } rfl _ _)
  | closed kind closing =>
    simp only [settle]
    split
    · exact hgo s rfl
    · exact congrArg Except.ok
        (record_stopping s { s with cursor := (closing.compare s.cursor kind).2 } rfl _ _)

/-- Both runs take a line alike, but one of them stops behind it if it records a failure. -/
theorem line_stopping (hs : s.sections.WellPlaced) (l : Line) :
    r.stopping.line s l = (r.line s l).map (stopAtFailure s) := by
  have hbaseline : r.stopping.baseline = r.baseline := rfl
  rw [line_eq _ l hs, line_eq _ l hs, hbaseline]
  rcases s.outline.step r.baseline l with f | ⟨out, event⟩
  · rfl
  · exact settle_stopping r (s.follow out) l.number event

theorem line_stopping_cases (hoff : r.stopOnFailure = false) (hs : s.sections.WellPlaced)
    {flow : Flow} (h : r.line s l = .ok (flow, s')) :
    flow = .goOn ∧ s'.sections.WellPlaced
      ∧ ((s'.report.failures = s.report.failures ∧ r.stopping.line s l = .ok (.goOn, s'))
        ∨ ∃ f, f.line = l.number ∧ s'.report.failures = s.report.failures ++ [f]
          ∧ r.stopping.line s l = .ok (.stop, s')) := by
  obtain ⟨out, event, heffect⟩ := line_effect hs h
  rw [line_stopping hs, h, Except.map, stopAtFailure]
  rcases heffect.failures with ⟨hflow, hsame⟩ | ⟨f, hflow, hnumber, hmore⟩
  · rw [if_pos hsame]
    exact ⟨hflow, heffect.wellPlaced, .inl ⟨hsame, rfl⟩⟩
  · have hne : s'.report.failures ≠ s.report.failures := by
      rw [hmore]
      exact fun heq => List.cons_ne_nil f [] (List.append_right_eq_self.mp heq)
    rw [hoff, if_neg Bool.false_ne_true] at hflow
    rw [if_neg hne]
    exact ⟨hflow, heffect.wellPlaced, .inr ⟨f, hnumber, hmore, rfl⟩⟩

theorem reached_clean (hnone : s.report.failures = [])
    (h : ∀ l rest next, items = .ok l :: rest → r.line s l = .ok (.goOn, next) →
      ∀ later s', r.Reaches next rest later s' → s'.report.failures = []) :
    ∀ taken s', r.Reaches s items taken s' → s'.report.failures = [] := by
  intro taken s' hreaches
  rcases hreaches.cases with ⟨-, rfl⟩ | ⟨l, later, rest, next, -, hitems, hline, hrest⟩
  · exact hnone
  · exact h l rest next hitems hline later s' hrest

theorem lines_stopping (r : RunSetup α) (hoff : r.stopOnFailure = false)
    (items : List (Except ScanError Line)) (hs : s.sections.WellPlaced)
    (hnone : s.report.failures = []) :
    (r.stopping.lines s items = r.lines s items
        ∧ ∀ taken s', r.Reaches s items taken s' → s'.report.failures = [])
      ∨ ∃ taken l t s' f, r.Reaches s items taken t ∧ t.report.failures = []
        ∧ r.Reaches s items (taken ++ [l]) s' ∧ s'.report.failures = [f] ∧ f.line = l.number
        ∧ r.stopping.lines s items =
          ⟨.ok { s'.report with stoppedEarly := true }, s'.options⟩ := by
  induction items generalizing s with
  | nil => exact .inl ⟨rfl, reached_clean hnone fun l rest next hitems => by cases hitems⟩
  | cons item items ih =>
    rcases item with e | l
    · exact .inl ⟨rfl, reached_clean hnone fun l rest next hitems => by cases hitems⟩
    · rw [lines, lines]
      rcases hline : r.line s l with e | ⟨flow, next⟩
      · rw [line_stopping hs, hline]
        refine .inl ⟨rfl, reached_clean hnone fun m rest next hitems hm => ?_⟩
        cases hitems
        rw [hline] at hm
        cases hm
      · obtain ⟨rfl, hplaced, ⟨hsame, hstop⟩ | ⟨f, hnumber, hmore, hstop⟩⟩ :=
          line_stopping_cases hoff hs hline
        -- without a failure both go on to the rest; behind a failure one of them ends
        · rw [hstop]
          rcases ih hplaced (hsame.trans hnone) with
            ⟨hlines, hclean⟩ | ⟨taken, m, t, s', f, ht, hclean, hs', hend⟩
          · refine .inl ⟨hlines, reached_clean hnone fun m rest next' hitems hm => ?_⟩
            cases hitems
            rw [hline] at hm
            cases hm
            exact hclean
          · exact .inr ⟨l :: taken, m, t, s', f, reaches_cons hline ht, hclean,
              reaches_cons hline hs', hend⟩
        · rw [hnone, List.nil_append] at hmore
          rw [hstop]
          exact .inr ⟨[], l, s, next, f, ⟨List.nil_prefix, .nil s⟩, hnone,
            reaches_cons hline ⟨List.nil_prefix, .nil next⟩, hmore, hnumber, rfl⟩

theorem line_failures_kept (hs : s.sections.WellPlaced) {step : Flow × RunState α}
    (h : r.line s l = .ok step) :
    step.2.sections.WellPlaced ∧ s.report.failures <+: step.2.report.failures := by
  obtain ⟨out, event, heffect⟩ := line_effect hs h
  refine ⟨heffect.wellPlaced, ?_⟩
  rcases heffect.failures with ⟨-, hsame⟩ | ⟨f, -, -, hmore⟩
  · exact ⟨[], by rw [List.append_nil, hsame]⟩
  · rw [hmore]
    exact List.prefix_append _ _

theorem failures_kept (hs : s.sections.WellPlaced) {report : Report}
    (h : (r.lines s items).result = .ok report) : s.report.failures <+: report.failures := by
  induction items generalizing s with
  | nil =>
    rw [lines, finish] at h
    split at h
    · exact ⟨[], by rw [List.append_nil, Except.ok.inj h]⟩
    · cases h
  | cons item items ih =>
    rcases item with e | l
    · cases h
    · rw [lines] at h
      rcases hline : r.line s l with e | ⟨_ | _, next⟩
      · rw [hline] at h
        cases h
      · rw [hline] at h
        obtain ⟨hplaced, hmore⟩ := line_failures_kept hs hline
        exact hmore.trans (ih hplaced h)
      · rw [hline] at h
        rw [← Except.ok.inj h]
        exact (line_failures_kept hs hline).2

end RunSetup

/-- Either the run that goes on never records a failure, and then the run that stops at failures is
the same; or that run is cut off behind the line of the first failure. -/
theorem runBytes_stopOnFailure (d : Dictionary α) (order : CandidateOrder) (path : String)
    (o : Options) (content : List UInt8) :
    let reaches := RunSetup.Reaches ⟨d, order, false, path, o⟩ (.initial path o) (scan content)
    let run := runBytes d order false path o content
    let stopped := runBytes d order true path o content
    (stopped = run ∧ ∀ taken s, reaches taken s → s.report.failures = [])
      ∨ ∃ taken l s s' f, reaches taken s ∧ s.report.failures = []
        ∧ reaches (taken ++ [l]) s' ∧ s'.report.failures = [f] ∧ f.line = l.number
        ∧ stopped = ⟨.ok { s'.report with stoppedEarly := true }, s'.options⟩
        ∧ ∀ report, run.result = .ok report → report.failures.head? = some f := by
  intro reaches run stopped
  have hs : (RunState.initial path o : RunState α).sections.WellPlaced :=
    Sections.wellPlaced_closed
  rcases RunSetup.lines_stopping ⟨d, order, false, path, o⟩ rfl (scan content) hs rfl with
    hsame | ⟨taken, l, s, s', f, ht, hclean, hs', hfailure, hnumber, hstopped⟩
  · exact .inl hsame
  · refine .inr ⟨taken, l, s, s', f, ht, hclean, hs', hfailure, hnumber, hstopped, ?_⟩
    intro report hreport
    obtain ⟨rest, hitems⟩ := hs'.1
    have hlines := hs'.2.lines_append rest
    rw [hitems] at hlines
    have hmore := RunSetup.failures_kept (hs'.2.wellPlaced hs)
      ((congrArg _ hlines).symm.trans hreport)
    rw [hfailure] at hmore
    obtain ⟨later, hreported⟩ := hmore
    rw [← hreported]
    rfl

end LinkageCheck
