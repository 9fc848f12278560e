import LinkageCheck.Proofs.Run.Grammar
import LinkageCheck.Proofs.Run.Reached

/-! What the counts and the failures of a report stand for, however its run ended. -/

namespace LinkageCheck

/-- The failure belongs to one of these lines, and to the sentence of the record around it. -/
def CheckFailure.PlacedIn (f : CheckFailure) (ls : List Line) : Prop :=
  ∃ before first body l after, ls = before ++ first :: (body ++ l :: after)
    ∧ first.opcode = .sentence ∧ (∀ m ∈ body, m.opcode ≠ .sentence)
    ∧ (l.opcode = .next ∨ l.opcode.section?.isSome) ∧ f.line = l.number
    ∧ f.sentence = some first.sentenceText ∧ 1 ≤ f.linkage

def CheckFailure.Apart (ls : List Line) (f g : CheckFailure) : Prop :=
  ∃ l ∈ ls, l.opcode = .sentence ∧ f.line < l.number ∧ l.number < g.line

/-- The report adds up, and accounts for the lines that its run took. -/
structure Report.Accounts (report : Report) (stopOnFailure : Bool) (ls : List Line) : Prop where
  checks : report.checks = report.passed + report.failures.length
  sentences : report.failures.length ≤ report.sentences
  increasing : report.failures.Pairwise (·.line < ·.line)
  apart : report.failures.Pairwise (CheckFailure.Apart ls)
  placed : ∀ f ∈ report.failures, f.PlacedIn ls
  stopped : report.stoppedEarly = true ↔ stopOnFailure = true ∧ report.failures ≠ []
  lone : report.stoppedEarly = true → report.failures.length = 1

namespace CheckFailure

variable {f g : CheckFailure} {ls : List Line}

theorem PlacedIn.append (h : f.PlacedIn ls) (later : List Line) : f.PlacedIn (ls ++ later) := by
  obtain ⟨before, first, body, l, after, rfl, hrest⟩ := h
  exact ⟨before, first, body, l, after ++ later, by simp, hrest⟩

theorem PlacedIn.exists_line (h : f.PlacedIn ls) : ∃ l ∈ ls, f.line = l.number := by
  obtain ⟨before, first, body, l, after, rfl, -, -, -, hnumber, -⟩ := h
  exact ⟨l, by simp, hnumber⟩

theorem Apart.append (h : Apart ls f g) (later : List Line) : Apart (ls ++ later) f g := by
  obtain ⟨l, hl, hrest⟩ := h
  exact ⟨l, List.mem_append_left _ hl, hrest⟩

theorem Apart.line_lt (h : Apart ls f g) : f.line < g.line := by
  obtain ⟨l, -, -, hf, hg⟩ := h
  exact hf.trans hg

end CheckFailure

theorem Outline.Act.noisy {baseline : Options} {s out : Outline} {l : Line} {event : Event}
    (h : Outline.Act baseline (s.arrive l) l out event) (hs : s.Sound)
    (hevent : ∀ text, event ≠ .sentence text) (hnoisy : event ≠ .quiet) :
    s.started = true ∧ (l.opcode = .next ∨ l.opcode.section?.isSome) := by
  cases h with
  | comment => exact absurd rfl hnoisy
  | directive => exact absurd rfl hnoisy
  | sentence => exact absurd rfl (hevent _)
  | next hopcode hstarted => exact ⟨hstarted, .inl hopcode⟩
  | collect => exact absurd rfl hnoisy
  | @close kind _ _ hopcode hopen =>
    refine ⟨hs kind (ne_of_eq_of_ne hopen (Option.some_ne_none _)), .inr ?_⟩
    rw [hopcode]
    rfl

variable {α : Type} [Linkage α]

/-- A sentence was started, and its record has not failed unless it is skipped. -/
def RunState.InRecord (s : RunState α) (ls : List Line) : Prop :=
  ∃ before first body, ls = before ++ first :: body ∧ first.opcode = .sentence
    ∧ (∀ m ∈ body, m.opcode ≠ .sentence) ∧ s.sentence = some first.sentenceText
    ∧ (s.skipping = false → s.report.failures.length < s.report.sentences
      ∧ ∀ f ∈ s.report.failures, f.line < first.number)

/-- Nothing was recorded in between but what held, and the record is still the same. -/
structure RunState.SameRecord (s s' : RunState α) : Prop where
  failures : s'.report.failures = s.report.failures
  sentences : s'.report.sentences = s.report.sentences
  started : s'.cursor.isStarted = s.cursor.isStarted
  sentence : s'.sentence = s.sentence
  skipping : s'.skipping = s.skipping

structure Ledger (ls : List Line) (s : RunState α) : Prop where
  checks : s.report.checks = s.report.passed + s.report.failures.length
  sentences : s.report.failures.length ≤ s.report.sentences
  apart : s.report.failures.Pairwise (CheckFailure.Apart ls)
  placed : ∀ f ∈ s.report.failures, f.PlacedIn ls
  inRecord : s.cursor.isStarted = true → s.InRecord ls

namespace Ledger

variable {r : RunSetup α} {s s' : RunState α} {l : Line} {ls : List Line}

omit [Linkage α] in
theorem initial (path : String) (o : Options) :
    Ledger [] (RunState.initial path o : RunState α) where
  checks := rfl
  sentences := le_rfl
  apart := .nil
  placed := fun _ hf => absurd hf List.not_mem_nil
  inRecord := fun hstarted => absurd hstarted Bool.false_ne_true

omit [Linkage α] in
theorem apart_append (h : Ledger ls s) (later : List Line) :
    s.report.failures.Pairwise (CheckFailure.Apart (ls ++ later)) :=
  h.apart.imp fun hfg => hfg.append later

omit [Linkage α] in
theorem line_lt (h : Ledger ls s) (hnumber : ∀ m ∈ ls, m.number < l.number) :
    ∀ f ∈ s.report.failures, f.line < l.number := by
  intro f hf
  obtain ⟨m, hm, hline⟩ := (h.placed f hf).exists_line
  rw [hline]
  exact hnumber m hm

omit [Linkage α] in
theorem keep (h : Ledger ls s) (hopcode : l.opcode ≠ .sentence) (hsame : s.SameRecord s')
    (hchecks : s'.report.checks = s'.report.passed + s'.report.failures.length) :
    Ledger (ls ++ [l]) s' where
  checks := hchecks
  sentences := by
    rw [hsame.failures, hsame.sentences]
    exact h.sentences
  apart := by
    rw [hsame.failures]
    exact h.apart_append [l]
  placed := by
    rw [hsame.failures]
    exact fun f hf => (h.placed f hf).append [l]
  inRecord := by
    rw [hsame.started]
    intro hs
    obtain ⟨before, first, body, rfl, hfirst, hbody, htext, hgoing⟩ := h.inRecord hs
    have hlater : ∀ m ∈ body ++ [l], m.opcode ≠ .sentence :=
      List.forall_mem_append.mpr ⟨hbody, List.forall_mem_singleton.mpr hopcode⟩
    refine ⟨before, first, body ++ [l], by simp, hfirst, hlater, hsame.sentence.trans htext, ?_⟩
    rw [hsame.skipping, hsame.failures, hsame.sentences]
    exact hgoing

omit [Linkage α] in
theorem fail (h : Ledger ls s) (hnumber : ∀ m ∈ ls, m.number < l.number)
    (hopcode : l.opcode = .next ∨ l.opcode.section?.isSome) (hstarted : s.cursor.isStarted = true)
    (hskip : s.skipping = false) (path : String) (kind : Mismatch) :
    Ledger (ls ++ [l]) (s.fail path l.number kind) := by
  obtain ⟨before, first, body, rfl, hfirst, hbody, htext, hgoing⟩ := h.inRecord hstarted
  obtain ⟨hroom, hearlier⟩ := hgoing hskip
  have hne : l.opcode ≠ .sentence := by
    rcases hopcode with hopcode | hopcode <;> intro heq <;> rw [heq] at hopcode <;> cases hopcode
  have hlater : ∀ m ∈ body ++ [l], m.opcode ≠ .sentence :=
    List.forall_mem_append.mpr ⟨hbody, List.forall_mem_singleton.mpr hne⟩
  have hordinal : 1 ≤ s.cursor.ordinal := by
    rw [Cursor.isStarted] at hstarted
    obtain ⟨standing, hstanding⟩ := Option.isSome_iff_exists.mp hstarted
    rw [Cursor.ordinal, hstanding]
    exact Nat.le_add_left 1 standing.index
  exact {
    checks := by
      simp only [RunState.fail, List.length_append, List.length_singleton, h.checks, Nat.add_assoc]
    sentences := by
      simp only [RunState.fail, List.length_append, List.length_singleton]
      exact hroom
    apart := by
      refine List.pairwise_append.mpr ⟨h.apart_append [l], List.pairwise_singleton _ _, ?_⟩
      intro f hf g hg
      rw [List.mem_singleton.mp hg]
      exact ⟨first, by simp, hfirst, hearlier f hf, hnumber first (by simp)⟩
    placed := by
      intro f hf
      rcases List.mem_append.mp hf with hf | hf
      · exact (h.placed f hf).append [l]
      · rw [List.mem_singleton.mp hf]
        exact ⟨before, first, body, l, [], by simp, hfirst, hbody, hopcode, rfl, htext, hordinal⟩
    inRecord := fun _ =>
      ⟨before, first, body ++ [l], by simp, hfirst, hlater, htext, fun hgo => by cases hgo⟩ }

omit [Linkage α] in
theorem start (h : Ledger ls s) (hnumber : ∀ m ∈ ls, m.number < l.number)
    (hopcode : l.opcode = .sentence) (cursor : Cursor α) :
    Ledger (ls ++ [l]) { s with
      skipping := false
      sentence := some l.sentenceText
      cursor
      report := { s.report with sentences := s.report.sentences + 1 } } where
  checks := h.checks
  sentences := Nat.le_succ_of_le h.sentences
  apart := h.apart_append [l]
  placed := fun f hf => (h.placed f hf).append [l]
  inRecord := by
    intro _
    refine ⟨ls, l, [], rfl, hopcode, fun m hm => absurd hm List.not_mem_nil, rfl, fun _ => ?_⟩
    exact ⟨Nat.lt_succ_of_le h.sentences, h.line_lt hnumber⟩

omit [Linkage α] in
theorem moved (h : Ledger ls s) {cursor : Cursor α}
    (hcursor : cursor.isStarted = s.cursor.isStarted) : Ledger ls { s with cursor } :=
  ⟨h.checks, h.sentences, h.apart, h.placed, fun hs => h.inRecord (hcursor ▸ hs)⟩

theorem line (h : Ledger ls s) (hs : s.sections.WellPlaced) (hsound : s.outline.Sound)
    (hnumber : ∀ m ∈ ls, m.number < l.number) {step : Flow × RunState α}
    (hline : r.line s l = .ok step) :
    Ledger (ls ++ [l]) step.2 ∧ step.2.sections.WellPlaced ∧ step.2.outline.Sound := by
  obtain ⟨out, event, heffect⟩ := RunSetup.line_effect hs hline
  have hact := heffect.act
  have hnext : step.2.outline.Sound := by
    rw [heffect.outline_eq]
    exact hact.sound hsound
  refine ⟨?_, heffect.wellPlaced, hnext⟩
  have hfollow : Ledger ls (s.follow out) :=
    ⟨h.checks, h.sentences, h.apart, h.placed, h.inRecord⟩
  have hne : (∀ text, event ≠ .sentence text) → l.opcode ≠ .sentence := by
    intro hevent hopcode
    exact hevent _ (hact.of_sentence hopcode).2
  have heff := heffect.effect
  cases heff with
  | sentence hparse =>
    cases hact with
    | sentence hopcode => exact hfollow.start hnumber hopcode _
  | keep hevent hcursor =>
    exact hfollow.keep (hne hevent) ⟨rfl, rfl, hcursor, rfl, rfl⟩ h.checks
  | @record _ cursor outcome hevent hnoisy hcursor hgoing =>
    rcases outcome with kind | ⟨⟩
    · obtain ⟨hstarted, hopcode⟩ := hact.noisy hsound hevent hnoisy
      exact (hfollow.moved hcursor).fail hnumber hopcode (hcursor.trans hstarted) hgoing r.path kind
    · refine hfollow.keep (hne hevent) ⟨rfl, rfl, hcursor, rfl, rfl⟩ ?_
      simp only [RunSetup.record, RunState.pass, RunState.follow, h.checks]
      omega

omit [Linkage α] in
theorem accounts (h : Ledger ls s) {stopOnFailure stoppedEarly : Bool}
    (hstopped : stoppedEarly = true ↔ stopOnFailure = true ∧ s.report.failures ≠ [])
    (hlone : stoppedEarly = true → s.report.failures.length = 1) :
    ({ s.report with stoppedEarly } : Report).Accounts stopOnFailure ls where
  checks := h.checks
  sentences := h.sentences
  increasing := h.apart.imp CheckFailure.Apart.line_lt
  apart := h.apart
  placed := h.placed
  stopped := hstopped
  lone := hlone

theorem goes (hgoes : r.Goes s ls s') {before : List Line} (h : Ledger before s)
    (hs : s.sections.WellPlaced) (hsound : s.outline.Sound)
    (hnumber : (before ++ ls).Pairwise (·.number < ·.number)) :
    Ledger (before ++ ls) s' ∧ s'.sections.WellPlaced ∧ s'.outline.Sound := by
  induction hgoes generalizing before with
  | nil s =>
    rw [List.append_nil]
    exact ⟨h, hs, hsound⟩
  | @cons s next s' l ls hline hrest ih =>
    have hlast : ∀ m ∈ before, m.number < l.number := fun m hm =>
      (List.pairwise_append.mp hnumber).2.2 m hm l List.mem_cons_self
    obtain ⟨hledger, hplaced, hnext⟩ := h.line hs hsound hlast hline
    rw [List.append_cons] at hnumber ⊢
    exact ih hledger hplaced hnext hnumber

end Ledger

theorem number_pairwise {content : List UInt8} {ls : List Line}
    (h : ls.map .ok <+: scan content) : ls.Pairwise (·.number < ·.number) := by
  have hnumber : ∀ i (hi : i < ls.length), ls[i].number = i + 1 := by
    intro i hi
    obtain ⟨rest, hitems⟩ := h
    refine itemNumber_scan (?_ : (scan content)[i]? = some (.ok ls[i]))
    rw [← hitems, List.getElem?_append_left (by rwa [List.length_map]), List.getElem?_map,
      List.getElem?_eq_getElem hi]
    rfl
  refine List.pairwise_iff_getElem.mpr fun i j hi hj hij => ?_
  rw [hnumber i hi, hnumber j hj]
  exact Nat.succ_lt_succ hij

namespace RunSetup

variable {r : RunSetup α} {s s' : RunState α} {ls : List Line}

theorem line_eq_stop {l : Line} (hs : s.sections.WellPlaced) (h : r.line s l = .ok (.stop, s')) :
    r.stopOnFailure = true ∧ ∃ f, s'.report.failures = s.report.failures ++ [f] := by
  obtain ⟨out, event, heffect⟩ := line_effect hs h
  rcases heffect.failures with ⟨hflow, -⟩ | ⟨f, hflow, -, hmore⟩
  · cases hflow
  · refine ⟨?_, f, hmore⟩
    by_contra hoff
    rw [if_neg hoff] at hflow
    cases hflow

theorem Goes.failures_eq (hgoes : r.Goes s ls s') (hstop : r.stopOnFailure = true)
    (hs : s.sections.WellPlaced) : s'.report.failures = s.report.failures := by
  induction hgoes with
  | nil s => rfl
  | @cons s next s' l ls hline hrest ih =>
    obtain ⟨out, event, heffect⟩ := line_effect hs hline
    rcases heffect.failures with ⟨-, hsame⟩ | ⟨f, hflow, -⟩
    · exact (ih heffect.wellPlaced).trans hsame
    · rw [hstop, if_pos rfl] at hflow
      cases hflow

end RunSetup

/-- However a run that ends well was set up, its report accounts for the lines that it took, and
these are all lines of the file unless it stopped early. -/
theorem runBytes_accounts {d : Dictionary α} {order : CandidateOrder} {stopOnFailure : Bool}
    {path : String} {o : Options} {content : List UInt8} {report : Report}
    (hrun : (runBytes d order stopOnFailure path o content).result = .ok report) :
    ∃ ls rest, scan content = ls.map .ok ++ rest ∧ report.Accounts stopOnFailure ls
      ∧ (report.stoppedEarly = false → rest = []) := by
  have hs : (RunState.initial path o : RunState α).sections.WellPlaced :=
    Sections.wellPlaced_closed
  have hsound : (RunState.initial path o : RunState α).outline.Sound := by
    rw [RunState.outline_initial]
    exact sound_initial o
  have hledger : Ledger [] (RunState.initial path o : RunState α) := Ledger.initial path o
  rcases RunSetup.lines_eq_ok hrun with
    ⟨ls, s, hitems, hgoes, rfl⟩ | ⟨ls, l, t, s, ⟨-, hgoes⟩, hfirst, hline, rfl⟩
  -- the run took all lines
  · have hfirst : ls.map .ok <+: scan content := ⟨[], by rw [List.append_nil, hitems]⟩
    obtain ⟨hend, -⟩ := Ledger.goes hgoes hledger hs hsound (number_pairwise hfirst)
    have hunstopped : s.report.stoppedEarly = false := (hgoes.report hs).2
    refine ⟨ls, [], by rw [hitems, List.append_nil], hend.accounts ?_ ?_, fun _ => rfl⟩
    · rw [hunstopped]
      refine ⟨fun h => (by cases h), fun ⟨hstop, hne⟩ => ?_⟩
      exact absurd (hgoes.failures_eq hstop hs) hne
    · rw [hunstopped]
      intro h
      cases h
  -- the run stopped behind the line `l`
  · obtain ⟨rest, hitems⟩ := hfirst
    have hnumber := number_pairwise ⟨rest, hitems⟩
    obtain ⟨hbefore, hplaced, hsound'⟩ := Ledger.goes hgoes hledger hs hsound
      (List.pairwise_append.mp hnumber).1
    have hlast : ∀ m ∈ ls, m.number < l.number := fun m hm =>
      (List.pairwise_append.mp hnumber).2.2 m hm l List.mem_cons_self
    obtain ⟨hend, -⟩ := hbefore.line hplaced hsound' hlast hline
    obtain ⟨hstop, f, hfailures⟩ := RunSetup.line_eq_stop hplaced hline
    have hlone : s.report.failures = [f] := by
      rw [hfailures, hgoes.failures_eq hstop hs]
      rfl
    refine ⟨ls ++ [l], rest, hitems.symm, hend.accounts ?_ ?_, fun h => by cases h⟩
    · rw [hlone]
      exact ⟨fun _ => ⟨hstop, List.cons_ne_nil f []⟩, fun _ => rfl⟩
    · rw [hlone]
      exact fun _ => rfl

def treelessReport : Report :=
  ⟨"t", 2, 2, 0, [⟨"t", 3, some "hi", 1, .noLinkage .constituents⟩,
    ⟨"t", 9, some "ho", 1, .noLinkage .constituents⟩], false⟩

theorem runBytes_accounts_trees : ∃ ls rest, scan treeFile = ls.map .ok ++ rest
    ∧ treelessReport.Accounts false ls ∧ (treelessReport.stoppedEarly = false → rest = []) := by
  have hrun : (runBytes (ofTrees []) .engine false "t" .standard treeFile).result =
      .ok treelessReport := by
    decide +kernel
  exact runBytes_accounts hrun

end LinkageCheck
