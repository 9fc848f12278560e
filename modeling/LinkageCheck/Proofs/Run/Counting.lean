import LinkageCheck.Proofs.Run.Acceptance
import LinkageCheck.Proofs.Run.Accounting

/-! What a run that ends well has counted. The text of a section is compared in the end, or the
record has failed before, so a run that counts nothing has seen no text in a section: its last line
is then a bare section opcode with no line end behind it. -/

namespace LinkageCheck

/-- A section line with text, its line end included. -/
def Line.Written (l : Line) : Prop := l.opcode.section? ≠ none ∧ l.text ≠ ""

def Event.IsClosed (event : Event) : Prop := ∃ kind closing, event = .closed kind closing

namespace Outline

variable {baseline : Options} {s out : Outline} {l : Line} {event : Event} {kind : SectionKind}
  {earlier : String}

theorem pending_ne_nil : s.pending ≠ [] ↔ ∃ kind, (s.collected kind).any (· != "") = true := by
  rw [ne_eq, pending_eq_nil]
  simp

theorem not_pending_or_written (hfree : s.unfinished? l.opcode = none)
    (hsection : l.opcode.section? = none) : ¬ (s.pending ≠ [] ∨ l.Written) := by
  have hpending : s.pending = [] := by
    rw [pending_eq_nil]
    intro kind
    have hother : l.opcode.section? ≠ some kind := by simp [hsection]
    exact unfinished?_eq_none.mp hfree kind hother
  simp [hpending, Line.Written, hsection]

theorem pending_or_written_iff (hfree : s.unfinished? l.opcode = none)
    (hopcode : l.opcode.section? = some kind) (hopen : s.collected kind = some earlier) :
    (s.pending ≠ [] ∨ l.Written) ↔ earlier ++ l.text ≠ "" := by
  have hpending : s.pending ≠ [] ↔ earlier ≠ "" := by
    rw [pending_ne_nil]
    refine ⟨fun ⟨other, hother⟩ => ?_, fun hne => ⟨kind, by simp [hopen, hne]⟩⟩
    have hsame : l.opcode.section? = some other := by
      by_contra hne
      rw [unfinished?_eq_none.mp hfree other hne] at hother
      cases hother
    obtain rfl : kind = other := Option.some.inj (hopcode.symm.trans hsame)
    simpa [hopen] using hother
  have hwritten : l.Written ↔ l.text ≠ "" := by simp [Line.Written, hopcode]
  rw [hpending, hwritten]
  simp only [ne_eq, String.append_eq_empty_iff]
  tauto

theorem Act.pending_or_closed (h : Act baseline (s.arrive l) l out event)
    (hfree : s.unfinished? l.opcode = none) :
    (out.pending ≠ [] ∨ event.IsClosed) ↔ s.pending ≠ [] ∨ l.Written := by
  have hplace : ∀ kind, (out.collected kind).any (· != "") = true →
      l.opcode.section? = some kind := fun kind => h.section?_of_pending hfree
  have quiet : l.opcode.section? = none → ¬ event.IsClosed →
      ((out.pending ≠ [] ∨ event.IsClosed) ↔ s.pending ≠ [] ∨ l.Written) := by
    intro hsection hevent
    refine iff_of_false ?_ (not_pending_or_written hfree hsection)
    rintro (hpending | hclosed)
    · obtain ⟨kind, hkind⟩ := pending_ne_nil.mp hpending
      simp [hsection] at hplace
      simp [hplace kind] at hkind
    · exact hevent hclosed
  cases h with
  | comment hopcode => exact quiet (by simp [hopcode, Opcode.section?]) (by simp [Event.IsClosed])
  | directive hopcode => exact quiet (by simp [hopcode, Opcode.section?]) (by simp [Event.IsClosed])
  | sentence hopcode => exact quiet (by simp [hopcode, Opcode.section?]) (by simp [Event.IsClosed])
  | next hopcode => exact quiet (by simp [hopcode, Opcode.section?]) (by simp [Event.IsClosed])
  | @collect kind earlier hopcode hopen hrule =>
    rw [pending_or_written_iff hfree hopcode hopen]
    refine ⟨?_, fun hne => .inl (pending_ne_nil.mpr ⟨kind, by simpa using hne⟩)⟩
    rintro (hpending | ⟨other, closing, hevent⟩)
    · obtain ⟨other, hother⟩ := pending_ne_nil.mp hpending
      obtain rfl : kind = other := Option.some.inj (hopcode.symm.trans (hplace other hother))
      simpa using hother
    · cases hevent
  | @close kind earlier closing hopcode hopen hrule =>
    rw [pending_or_written_iff hfree hopcode hopen]
    refine iff_of_true (.inr ⟨kind, closing, rfl⟩) fun hempty => ?_
    obtain ⟨rfl, htext⟩ := String.append_eq_empty_iff.mp hempty
    rw [htext, SectionKind.closing?_empty] at hrule
    cases hrule

end Outline

variable {α : Type} [Linkage α]

namespace RunSetup

variable {r : RunSetup α} {s s' : RunState α} {l : Line} {ls : List Line} {event : Event}

/-- What carrying out an event adds to the counts. A comparison is passed over only in a record that
has failed. -/
inductive Tally (s : RunState α) (event : Event) (s' : RunState α) : Prop where
  | nothing (hchecks : s'.report.checks = s.report.checks)
    (hpassed : s'.report.passed = s.report.passed)
    (hfailures : s'.report.failures = s.report.failures)
    (hskip : s'.skipping = true → s.skipping = true)
    (hevent : event.IsClosed → s.skipping = true)
  | pass (hchecks : s'.report.checks = s.report.checks + 1)
    (hpassed : s'.report.passed = s.report.passed + 1)
    (hfailures : s'.report.failures = s.report.failures) (hevent : event.IsClosed)
  | failure (f : CheckFailure) (hchecks : s'.report.checks = s.report.checks + 1)
    (hpassed : s'.report.passed = s.report.passed)
    (hfailures : s'.report.failures = s.report.failures ++ [f])

theorem settle_tally {number : Nat} {step : Flow × RunState α}
    (h : r.settle s number event = .ok step) : Tally s event step.2 := by
  cases event with
  | quiet =>
    cases h
    exact .nothing rfl rfl rfl id (by simp [Event.IsClosed])
  | sentence text =>
    obtain ⟨candidates, -, -, hstep, -⟩ := settle_sentence h
    rw [hstep]
    exact .nothing rfl rfl rfl (by simp) (by simp [Event.IsClosed])
  | next =>
    rw [settle] at h
    split_ifs at h with hskip
    · cases h
      exact .nothing rfl rfl rfl id (by simp [Event.IsClosed])
    · simp only at h
      split_ifs at h with hcurrent
      · cases h
        exact .nothing rfl rfl rfl id (by simp [Event.IsClosed])
      · cases h
        exact .failure _ rfl rfl rfl
  | closed kind closing =>
    rw [settle] at h
    split_ifs at h with hskip
    · cases h
      exact .nothing rfl rfl rfl id fun _ => hskip
    · cases h
      rcases (closing.compare s.cursor kind).1 with mismatch | ⟨⟩
      · exact .failure _ rfl rfl rfl
      · exact .pass rfl rfl rfl ⟨kind, closing, rfl⟩

namespace Tally

omit [Linkage α]

variable (h : Tally s event s')

include h

theorem adds (hs : s.report.checks = s.report.passed + s.report.failures.length) :
    s'.report.checks = s'.report.passed + s'.report.failures.length := by
  cases h with
  | nothing hchecks hpassed hfailures => rw [hchecks, hpassed, hfailures, hs]
  | pass hchecks hpassed hfailures =>
    rw [hchecks, hpassed, hfailures, hs]
    omega
  | failure f hchecks hpassed hfailures =>
    rw [hchecks, hpassed, hfailures, hs, List.length_append, List.length_singleton, Nat.add_assoc]

theorem checks_ne_zero (hchecks : s.report.checks ≠ 0) : s'.report.checks ≠ 0 := by
  cases h <;> omega

theorem checks_of_skipping (hgoing : s.skipping = true → s.report.checks ≠ 0)
    (hskip : s'.skipping = true) : s'.report.checks ≠ 0 := by
  cases h with
  | nothing hchecks _ _ hkept => exact hchecks ▸ hgoing (hkept hskip)
  | pass hchecks => omega
  | failure f hchecks => omega

theorem checks_of_closed (hgoing : s.skipping = true → s.report.checks ≠ 0)
    (hclosed : event.IsClosed) : s'.report.checks ≠ 0 := by
  cases h with
  | nothing hchecks _ _ _ hevent => exact hchecks ▸ hgoing (hevent hclosed)
  | pass hchecks => omega
  | failure f hchecks => omega

theorem of_passed (hpass : s'.report.passed ≠ 0) : s.report.passed ≠ 0 ∨ event.IsClosed := by
  cases h with
  | nothing _ hpassed => exact .inl (hpassed ▸ hpass)
  | pass _ _ _ hevent => exact .inr hevent
  | failure _ _ hpassed => exact .inl (hpassed ▸ hpass)

end Tally

/-- The counts behind the lines `ls`: the text of their sections is pending or was counted, and
nothing passes without such text. -/
structure Heard (ls : List Line) (s : RunState α) : Prop where
  wellPlaced : s.sections.WellPlaced
  adds : s.report.checks = s.report.passed + s.report.failures.length
  going : s.skipping = true → s.report.checks ≠ 0
  counted : (∃ m ∈ ls, m.Written) → s.outline.pending ≠ [] ∨ s.report.checks ≠ 0
  written : s.outline.pending ≠ [] ∨ s.report.passed ≠ 0 → ∃ m ∈ ls, m.Written
  record : ∀ opcode, s.outline.lastRecord = some opcode → ∃ m ∈ ls, m.opcode = opcode

omit [Linkage α] in
theorem heard_initial (path : String) (o : Options) :
    Heard [] (.initial path o : RunState α) where
  wellPlaced := Sections.wellPlaced_closed
  adds := rfl
  going := by simp [RunState.initial]
  counted := by simp
  written := by
    rw [RunState.outline_initial]
    simp [Outline.pending_ne_nil, Outline.initial, RunState.initial, Report.empty]
  record := by
    rw [RunState.outline_initial]
    simp [Outline.initial]

theorem Heard.line (h : Heard ls s) {step : Flow × RunState α} (hline : r.line s l = .ok step) :
    Heard (ls ++ [l]) step.2 := by
  obtain ⟨out, event, heffect⟩ := line_effect h.wellPlaced hline
  have htally : Tally (s.follow out) event step.2 :=
    settle_tally (heffect.settled h.wellPlaced hline)
  have hkept := heffect.act.pending_or_closed heffect.inPlace
  have hlater : ∀ {P : Line → Prop}, (∃ m ∈ ls ++ [l], P m) ↔ (∃ m ∈ ls, P m) ∨ P l := by
    simp [or_and_right, exists_or]
  have htext : s.outline.pending ≠ [] ∨ l.Written → ∃ m ∈ ls ++ [l], m.Written := by
    rw [hlater]
    exact Or.imp_left fun hpending => h.written (.inl hpending)
  refine ⟨heffect.wellPlaced, htally.adds h.adds, htally.checks_of_skipping h.going, ?_, ?_, ?_⟩
  · rw [hlater, heffect.outline_eq]
    intro hwritten
    have hnow : s.report.checks ≠ 0 ∨ s.outline.pending ≠ [] ∨ l.Written := by
      rcases hwritten with hearlier | hl
      · exact (h.counted hearlier).symm.imp_right .inl
      · exact .inr (.inr hl)
    rcases hnow with hchecks | hsection
    · exact .inr (htally.checks_ne_zero hchecks)
    · exact (hkept.mpr hsection).imp_right (htally.checks_of_closed h.going)
  · rw [heffect.outline_eq]
    rintro (hpending | hpassed)
    · exact htext (hkept.mp (.inl hpending))
    · rcases htally.of_passed hpassed with hearlier | hclosed
      · exact hlater.mpr (.inl (h.written (.inr hearlier)))
      · exact htext (hkept.mp (.inr hclosed))
  · rw [heffect.outline_eq, heffect.act.arrived.1]
    intro opcode hopcode
    rw [hlater]
    split_ifs at hopcode
    · exact .inr (Option.some.inj hopcode)
    · exact .inl (h.record opcode hopcode)

theorem Goes.heard {path : String} {o : Options} (h : r.Goes (.initial path o) ls s) :
    Heard ls s := by
  apply h.invariant (I := Heard) [] (heard_initial path o)
  intro taken t l next hheard hline
  exact hheard.line hline

omit [Linkage α] in
theorem finish_of_ok {report : Report} (h : (r.finish s).result = .ok report) :
    s.outline.finish = .ok () := by
  have hlines := (r.finish_outline s).1
  rw [h, Outline.lines] at hlines
  rcases hfinish : s.outline.finish with f | ⟨⟩
  · rw [hfinish] at hlines
    cases hlines
  · rfl

omit [Linkage α] in
theorem Heard.finished (h : Heard ls s) (hfinish : s.outline.finish = .ok ()) :
    (1 ≤ s.report.checks ↔ s.report.failures ≠ [] ∨ ∃ m ∈ ls, m.Written)
      ∧ ∃ m ∈ ls, m.opcode.section? ≠ none := by
  obtain ⟨hpending, opcode, hlast, hsection⟩ := Outline.finish_eq_ok.mp hfinish
  obtain ⟨m, hm, hopcode⟩ := h.record opcode hlast
  refine ⟨⟨fun hchecks => ?_, ?_⟩, m, hm, ?_⟩
  · have hcount : s.report.failures.length ≠ 0 ∨ s.report.passed ≠ 0 := by
      have hadds := h.adds
      omega
    rcases hcount with hfailed | hpassed
    · exact .inl (List.length_pos_iff.mp (Nat.pos_of_ne_zero hfailed))
    · exact .inr (h.written (.inr hpassed))
  · rintro (hfailed | hwritten)
    · have hlength := List.length_pos_iff.mpr hfailed
      rw [h.adds]
      omega
    · have hchecks := (h.counted hwritten).resolve_left (not_not_intro hpending)
      exact Nat.one_le_iff_ne_zero.mpr hchecks
  · rw [hopcode]
    exact Option.isSome_iff_ne_none.mp hsection

end RunSetup

/-- The only section line is the last line of the file, an opcode with nothing behind it. -/
def EndsBare (content : List UInt8) : Prop :=
  ∃ before last, scan content = (before ++ [last]).map .ok ∧ last.opcode.section? ≠ none
    ∧ last.text = "" ∧ ∀ m ∈ before, m.opcode.section? = none

theorem EndsBare.not_written {content : List UInt8} (h : EndsBare content) {l : Line}
    (hl : .ok l ∈ scan content) : ¬ l.Written := by
  obtain ⟨before, last, hscan, -, htext, hbefore⟩ := h
  rw [hscan] at hl
  obtain ⟨m, hm, hsame⟩ := List.mem_map.mp hl
  obtain rfl : m = l := Except.ok.inj hsame
  rcases List.mem_append.mp hm with hm | hm
  · exact fun hwritten => hwritten.1 (hbefore m hm)
  · exact fun hwritten => hwritten.2 (by rw [List.mem_singleton.mp hm, htext])

theorem EndsBare.getLast?_ne {content : List UInt8} (h : EndsBare content) :
    content.getLast? ≠ some 10 := by
  intro hend
  obtain ⟨before, last, hscan, hsection, htext, -⟩ := h
  have hmem : .ok last ∈ scan content := by simp [hscan]
  refine text_ne_empty_of_mem_scan (fun byte hbyte => ?_) hmem hsection htext
  exact Option.some.inj (hbyte.symm.trans hend)

theorem endsBare_of_silent {content : List UInt8} {ls : List Line}
    (hscan : scan content = ls.map .ok) (hsilent : ∀ m ∈ ls, ¬ m.Written) {l : Line} (hl : l ∈ ls)
    (hsection : l.opcode.section? ≠ none) : EndsBare content := by
  have bare : ∀ m ∈ ls, m.opcode.section? ≠ none → m.text = "" := by
    intro m hm hother
    by_contra htext
    exact hsilent m hm ⟨hother, htext⟩
  have hsolid := solid_of_scan hscan
  obtain ⟨before, after, rfl⟩ := List.append_of_mem hl
  obtain rfl := hsolid before l after rfl hsection (bare l hl hsection)
  refine ⟨before, l, hscan, hsection, bare l hl hsection, fun m hm => ?_⟩
  by_contra hother
  obtain ⟨first, later, rfl⟩ := List.append_of_mem hm
  have hlast := hsolid first m (later ++ [l]) (by simp) hother (bare m (by simp) hother)
  exact List.append_ne_nil_of_right_ne_nil later (List.cons_ne_nil l []) hlast

/-- Every check of a run that ends well held or failed. -/
theorem runBytes_adds {d : Dictionary α} {order : CandidateOrder} {stopOnFailure : Bool}
    {path : String} {o : Options} {content : List UInt8} {report : Report}
    (hrun : (runBytes d order stopOnFailure path o content).result = .ok report) :
    report.checks = report.passed + report.failures.length := by
  rcases RunSetup.lines_eq_ok hrun with
    ⟨ls, s, -, hgoes, rfl⟩ | ⟨ls, l, t, s, ⟨-, hgoes⟩, -, hline, rfl⟩
  · exact hgoes.heard.adds
  · exact (hgoes.heard.line hline).adds

/-- A run that ends well has counted a check if it has a failure, or a section of its file has text,
and only then. So it counts nothing just for a file that ends bare, and never behind a line feed. -/
theorem runBytes_counts {d : Dictionary α} {order : CandidateOrder} {stopOnFailure : Bool}
    {path : String} {o : Options} {content : List UInt8} {report : Report}
    (hrun : (runBytes d order stopOnFailure path o content).result = .ok report) :
    (1 ≤ report.checks ↔ report.failures ≠ [] ∨ ∃ l, .ok l ∈ scan content ∧ l.Written)
      ∧ (report.checks = 0 ↔ report.failures = [] ∧ EndsBare content)
      ∧ (content.getLast? = some 10 → 1 ≤ report.checks) := by
  have key : (1 ≤ report.checks ↔ report.failures ≠ [] ∨ ∃ l, .ok l ∈ scan content ∧ l.Written)
      ∧ (report.checks = 0 → EndsBare content) := by
    rcases RunSetup.lines_eq_ok hrun with
      ⟨ls, s, hitems, hgoes, rfl⟩ | ⟨ls, l, t, s, ⟨-, hgoes⟩, -, hline, rfl⟩
    -- the run took all lines
    · have hfinish : s.outline.finish = .ok () := by
        apply RunSetup.finish_of_ok
        rw [← hgoes.lines_eq, ← hitems]
        exact hrun
      obtain ⟨hcounts, m, hm, hsection⟩ := hgoes.heard.finished hfinish
      have hlines : (∃ l, .ok l ∈ scan content ∧ l.Written) ↔ ∃ l ∈ ls, l.Written := by
        simp [hitems]
      rw [hlines]
      refine ⟨hcounts, fun hnone => ?_⟩
      refine endsBare_of_silent hitems (fun l hl hwritten => ?_) hm hsection
      have hchecks := hcounts.mpr (.inr ⟨l, hl, hwritten⟩)
      omega
    -- the run stopped at a failure
    · have hheard := hgoes.heard
      obtain ⟨-, f, hfailures⟩ := RunSetup.line_eq_stop hheard.wellPlaced hline
      have hfailed : s.report.failures ≠ [] := by simp [hfailures]
      have hadds : s.report.checks = s.report.passed + s.report.failures.length :=
        (hheard.line hline).adds
      have hlength := List.length_pos_iff.mpr hfailed
      simp only [hfailed, ne_eq, not_false_eq_true, true_or, iff_true]
      omega
  obtain ⟨hcounts, hbare⟩ := key
  refine ⟨hcounts, ⟨fun hnone => ⟨?_, hbare hnone⟩, fun ⟨hfailed, hends⟩ => ?_⟩, fun hend => ?_⟩
  · by_contra hfailed
    have hchecks := hcounts.mpr (.inl hfailed)
    omega
  · by_contra hchecks
    rcases hcounts.mp (Nat.one_le_iff_ne_zero.mpr hchecks) with hne | ⟨l, hl, hwritten⟩
    · exact hne hfailed
    · exact hends.not_written hl hwritten
  · by_contra hchecks
    exact (hbare (by omega)).getLast?_ne hend

/-- The constituents of this record are an opcode and nothing more. -/
def bareFile : List UInt8 := Text.Utf8.encode "Ihi\nC".toList

def fullFile : List UInt8 := bareFile ++ Text.Utf8.encode "S\nC\n".toList

theorem runBytes_counts_files : EndsBare bareFile ∧ ∃ l, .ok l ∈ scan fullFile ∧ l.Written := by
  have hbare : (runBytes (ofTrees ["S"]) .engine false "t" .standard bareFile).result =
      .ok ⟨"t", 1, 0, 0, [], false⟩ := by
    decide +kernel
  have hfull : (runBytes (ofTrees ["S"]) .engine false "t" .standard fullFile).result =
      .ok ⟨"t", 1, 1, 1, [], false⟩ := by
    decide +kernel
  have hends := ((runBytes_counts hbare).2.1.mp rfl).2
  have hwritten := (runBytes_counts hfull).1.mp le_rfl
  exact ⟨hends, hwritten.resolve_left (not_not_intro rfl)⟩

theorem bareFile_counts_nothing : ∃ report,
    (runBytes (ofTrees ["S"]) .engine false "t" .standard bareFile).result = .ok report
      ∧ ¬ 1 ≤ report.checks :=
  ⟨⟨"t", 1, 0, 0, [], false⟩, by decide +kernel, by decide⟩

end LinkageCheck
