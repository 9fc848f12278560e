import LinkageCheck.CommandLine
import LinkageCheck.Proofs.Run.Counting
import LinkageCheck.Proofs.Suite
import Mathlib.Algebra.GroupWithZero.Nat
import Mathlib.Algebra.Order.BigOperators.Group.List
import Mathlib.Algebra.Order.Group.Nat

/-! The tally of a suite is the sum of the tallies of its files, and the exit code says whether one
of their failures is listed nowhere. -/

namespace LinkageCheck

/-! ### Listed failures -/

@[simp]
theorem FailureEntry.isFor_iff {entry : FailureEntry} {file : String} {line : Nat} :
    entry.isFor file line = true ↔ entry.file = file ∧ entry.line = line := by
  simp [isFor]

namespace ExpectedFailures

variable {e : ExpectedFailures} {f : CheckFailure}

/-- An entry, known or pending, has the file name and the line of the failure. -/
def Lists (e : ExpectedFailures) (f : CheckFailure) : Prop :=
  ∃ entry ∈ e.known ++ e.pending, entry.file = f.fileName ∧ entry.line = f.line

theorem classify_eq_known_iff :
    e.classify f = .known ↔ ∃ entry ∈ e.known, entry.isFor f.fileName f.line = true := by
  rw [← List.any_eq_true, classify, stateOf]
  split_ifs with hknown hpending <;> simp [hknown]

theorem classify_eq_regression_iff : e.classify f = .regression ↔ ¬ e.Lists f := by
  have hlists : e.Lists f ↔ e.known.any (·.isFor f.fileName f.line) = true
      ∨ e.pending.any (·.isFor f.fileName f.line) = true := by
    simp only [Lists, List.any_eq_true, List.mem_append, FailureEntry.isFor_iff, or_and_right,
      exists_or]
  rw [hlists, classify, stateOf]
  split_ifs with hknown hpending <;> simp [*]

theorem entryFor?_isSome_iff : (e.entryFor? f.fileName f.line).isSome = true ↔ e.Lists f := by
  simp only [entryFor?, List.find?_isSome, FailureEntry.isFor_iff, Lists]

theorem entryFor?_known_iff : (∃ entry ∈ e.known, e.entryFor? f.fileName f.line = some entry) ↔
    ∃ entry ∈ e.known, entry.isFor f.fileName f.line = true := by
  constructor
  · rintro ⟨entry, hentry, hfound⟩
    rw [entryFor?] at hfound
    have hfor : entry.isFor f.fileName f.line = true := by simpa using List.find?_some hfound
    exact ⟨entry, hentry, hfor⟩
  · intro hany
    obtain ⟨entry, hfound⟩ := Option.isSome_iff_exists.mp (List.find?_isSome.mpr hany)
    have happend : e.entryFor? f.fileName f.line = some entry := by
      rw [entryFor?, List.find?_append, hfound, Option.some_or]
    exact ⟨entry, List.mem_of_find?_eq_some hfound, happend⟩

end ExpectedFailures

/-! ### Sums of tallies -/

attribute [ext] Tally

namespace Tally

variable {t : Tally} {e : ExpectedFailures} {report : Report} {outcomes : List CaseOutcome}

instance : Zero Tally := ⟨empty⟩

instance : Add Tally where
  add a b := ⟨a.total + b.total, a.passed + b.passed, a.expected + b.expected,
    a.regressions + b.regressions, a.skipped + b.skipped⟩

@[simp] theorem total_zero : (0 : Tally).total = 0 := rfl
@[simp] theorem passed_zero : (0 : Tally).passed = 0 := rfl
@[simp] theorem expected_zero : (0 : Tally).expected = 0 := rfl
@[simp] theorem regressions_zero : (0 : Tally).regressions = 0 := rfl
@[simp] theorem skipped_zero : (0 : Tally).skipped = 0 := rfl

@[simp] theorem total_add (a b : Tally) : (a + b).total = a.total + b.total := rfl
@[simp] theorem passed_add (a b : Tally) : (a + b).passed = a.passed + b.passed := rfl
@[simp] theorem expected_add (a b : Tally) : (a + b).expected = a.expected + b.expected := rfl
@[simp] theorem regressions_add (a b : Tally) :
    (a + b).regressions = a.regressions + b.regressions := rfl
@[simp] theorem skipped_add (a b : Tally) : (a + b).skipped = a.skipped + b.skipped := rfl

instance : AddCommMonoid Tally where
  add_assoc a b c := by ext <;> simp [Nat.add_assoc]
  zero_add a := by ext <;> simp
  add_zero a := by ext <;> simp
  add_comm a b := by ext <;> simp [Nat.add_comm]
  nsmul := nsmulRec

theorem addPasses_eq (t : Tally) (n : Nat) : t.addPasses n = t + ⟨n, n, 0, 0, 0⟩ := by
  induction n generalizing t with
  | zero => simp [addPasses, Tally.ext_iff]
  | succ n ih =>
    rw [addPasses, ih]
    ext <;> simp [addPass] <;> omega

theorem addFailures_eq (t : Tally) (e : ExpectedFailures) (failures : List CheckFailure) :
    failures.foldl (fun t f => t.addFailure (e.classify f)) t =
      t + ⟨failures.length, 0, failures.countP (e.classify · ≠ .regression),
        failures.countP (e.classify · = .regression), 0⟩ := by
  induction failures generalizing t with
  | nil => simp [Tally.ext_iff]
  | cons f failures ih =>
    rw [List.foldl_cons, ih]
    ext <;> cases hstate : e.classify f <;> simp [addFailure, hstate] <;> omega

theorem addReport_eq (t : Tally) (report : Report) (e : ExpectedFailures) :
    t.addReport report e = t + ⟨report.passed + report.failures.length, report.passed,
      report.failures.countP (e.classify · ≠ .regression),
      report.failures.countP (e.classify · = .regression), 0⟩ := by
  rw [addReport, addPasses_eq, addFailures_eq, add_assoc]
  congr 1
  ext <;> simp

end Tally

namespace CaseOutcome

def report? : CaseOutcome → Option Report
  | skipped .. => none
  | ran report => some report

def tally (e : ExpectedFailures) : CaseOutcome → Tally
  | skipped .. => Tally.empty.addSkip
  | ran report => Tally.empty.addReport report e

end CaseOutcome

def reportsOf (outcomes : List CaseOutcome) : List Report := outcomes.filterMap (·.report?)

namespace Tally

variable {t : Tally} {e : ExpectedFailures} {report : Report} {outcomes : List CaseOutcome}

theorem ofOutcomes_eq_sum (e : ExpectedFailures) (outcomes : List CaseOutcome) :
    ofOutcomes e outcomes = (outcomes.map (·.tally e)).sum := by
  have hfrom : ∀ t : Tally, outcomes.foldl (fun t outcome => match outcome with
      | .skipped .. => t.addSkip
      | .ran report => t.addReport report e) t = t + (outcomes.map (·.tally e)).sum := by
    induction outcomes with
    | nil =>
      intro t
      rw [List.foldl_nil, List.map_nil, List.sum_nil, add_zero]
    | cons outcome outcomes ih =>
      intro t
      rw [List.foldl_cons, ih, List.map_cons, List.sum_cons, ← add_assoc]
      congr 1
      cases outcome with
      | skipped name reason => ext <;> simp [addSkip, CaseOutcome.tally, empty]
      | ran report => simp [CaseOutcome.tally, addReport_eq, empty, Tally.ext_iff]
  exact (hfrom empty).trans (zero_add _)

theorem count_ofOutcomes (count : Tally → Nat) (hzero : count 0 = 0)
    (hadd : ∀ a b, count (a + b) = count a + count b) (hskip : count empty.addSkip = 0)
    (e : ExpectedFailures) (outcomes : List CaseOutcome) :
    count (ofOutcomes e outcomes) =
      ((reportsOf outcomes).map fun report => count (empty.addReport report e)).sum := by
  rw [ofOutcomes_eq_sum]
  induction outcomes with
  | nil => exact hzero
  | cons outcome outcomes ih =>
    rw [List.map_cons, List.sum_cons, hadd, ih]
    cases outcome with
    | skipped name reason =>
      have hreports : reportsOf (.skipped name reason :: outcomes) = reportsOf outcomes := rfl
      rw [CaseOutcome.tally, hskip, zero_add, hreports]
    | ran report => rfl

theorem skipped_ofOutcomes (e : ExpectedFailures) (outcomes : List CaseOutcome) :
    (ofOutcomes e outcomes).skipped = outcomes.countP (·.report?.isNone) := by
  rw [ofOutcomes_eq_sum]
  induction outcomes with
  | nil => rfl
  | cons outcome outcomes ih =>
    rw [List.map_cons, List.sum_cons, skipped_add, ih, List.countP_cons, Nat.add_comm]
    cases outcome with
    | skipped name reason => rfl
    | ran report => simp [CaseOutcome.tally, CaseOutcome.report?, addReport_eq, empty]

@[simp]
theorem exitCode_eq_zero_iff : t.exitCode = 0 ↔ t.regressions = 0 := by
  simp [exitCode]

@[simp]
theorem exitCode_eq_one_iff : t.exitCode = 1 ↔ t.regressions ≠ 0 := by
  simp [exitCode, Nat.pos_iff_ne_zero]

/-- The tally says what the reports of the outcomes say together. -/
structure Reflects (t : Tally) (e : ExpectedFailures) (outcomes : List CaseOutcome) : Prop where
  checks : t.total = ((reportsOf outcomes).map (·.checks)).sum
  split : t.total = t.passed + t.expected + t.regressions
  passed : t.passed = ((reportsOf outcomes).map (·.passed)).sum
  failures : t.expected + t.regressions = ((reportsOf outcomes).map (·.failures.length)).sum
  skipped : t.skipped = outcomes.countP (·.report?.isNone)
  files : ∀ count ∈ [Tally.total, Tally.passed, Tally.expected, Tally.regressions],
    count t = ((reportsOf outcomes).map fun report => count (empty.addReport report e)).sum
  clean : t.exitCode = 0 ↔ ∀ report ∈ reportsOf outcomes, ∀ f ∈ report.failures, e.Lists f
  unclean : t.exitCode = 1 ↔ ¬ ∀ report ∈ reportsOf outcomes, ∀ f ∈ report.failures, e.Lists f

theorem addReport_empty (report : Report) (e : ExpectedFailures) :
    empty.addReport report e = ⟨report.passed + report.failures.length, report.passed,
      report.failures.countP (e.classify · ≠ .regression),
      report.failures.countP (e.classify · = .regression), 0⟩ := by
  rw [addReport_eq]
  exact zero_add _

theorem expected_add_regressions (report : Report) (e : ExpectedFailures) :
    (empty.addReport report e).expected + (empty.addReport report e).regressions =
      report.failures.length := by
  have hlength := List.length_eq_countP_add_countP (e.classify · = .regression)
    (l := report.failures)
  rw [addReport_empty, hlength, Nat.add_comm]
  simp

theorem regressions_eq_zero_iff :
    (empty.addReport report e).regressions = 0 ↔ ∀ f ∈ report.failures, e.Lists f := by
  rw [addReport_empty]
  simp [ExpectedFailures.classify_eq_regression_iff]

theorem reflects_ofOutcomes (e : ExpectedFailures)
    (hadds : ∀ report ∈ reportsOf outcomes,
      report.checks = report.passed + report.failures.length) :
    (ofOutcomes e outcomes).Reflects e outcomes := by
  have htotal := count_ofOutcomes total rfl total_add rfl e outcomes
  have hpassed := count_ofOutcomes passed rfl passed_add rfl e outcomes
  have hexpected := count_ofOutcomes expected rfl expected_add rfl e outcomes
  have hregressions := count_ofOutcomes regressions rfl regressions_add rfl e outcomes
  have hclean : (ofOutcomes e outcomes).regressions = 0 ↔
      ∀ report ∈ reportsOf outcomes, ∀ f ∈ report.failures, e.Lists f := by
    rw [hregressions, List.sum_eq_zero_iff, List.forall_mem_map]
    simp only [regressions_eq_zero_iff]
  have hfailures : (ofOutcomes e outcomes).expected + (ofOutcomes e outcomes).regressions =
      ((reportsOf outcomes).map (·.failures.length)).sum := by
    rw [hexpected, hregressions, ← List.sum_map_add]
    simp only [expected_add_regressions]
  have hheld : (ofOutcomes e outcomes).passed = ((reportsOf outcomes).map (·.passed)).sum := by
    rw [hpassed]
    simp only [addReport_empty]
  have hsum : (ofOutcomes e outcomes).total =
      ((reportsOf outcomes).map fun report => report.passed + report.failures.length).sum := by
    rw [htotal]
    simp only [addReport_empty]
  refine ⟨?_, ?_, hheld, hfailures, skipped_ofOutcomes e outcomes, ?_, ?_, ?_⟩
  · rw [hsum, List.map_congr_left hadds]
  · rw [Nat.add_assoc, hfailures, hheld, hsum, List.sum_map_add]
  · simp only [List.forall_mem_cons]
    exact ⟨htotal, hpassed, hexpected, hregressions, by simp⟩
  · rw [exitCode_eq_zero_iff, hclean]
  · rw [exitCode_eq_one_iff, ne_eq, hclean]

end Tally

theorem Suite.adds_of_run {α : Type} [Linkage α] {s : Suite} {t : FileTree} {config : Config}
    {openDictionary : String → Except SuiteError (Dictionary α)} {outcomes : List CaseOutcome}
    (hrun : s.run t config openDictionary = .ok outcomes) {report : Report}
    (hreport : report ∈ reportsOf outcomes) :
    report.checks = report.passed + report.failures.length := by
  obtain ⟨outcome, hmem, hran⟩ := List.mem_filterMap.mp hreport
  obtain ⟨c, -, hc⟩ := exists_of_mem_mapM hrun hmem
  obtain ⟨o, d, -, -, ⟨reason, -, rfl⟩ | ⟨content, found, -, hbytes, rfl⟩⟩ :=
    runCase_eq_ok hc
  · cases hran
  · obtain rfl : found = report := Option.some.inj hran
    exact runBytes_adds hbytes

/-! ### The exit code -/

namespace CommandLine

variable {i : Invocation} {t : FileTree} {tally : Tally} {output : String}

theorem Invocation.run_eq_ok (hrun : i.run t = .ok (tally, output)) :
    ∃ s expected outcomes, i.selectSuite t = .ok s ∧ i.loadFailures t = .ok expected
      ∧ s.run t i.config (i.openDictionary t) = .ok outcomes
      ∧ tally = .ofOutcomes expected outcomes := by
  unfold run at hrun
  obtain ⟨s, hs, hrun⟩ := ok_of_bind_ok hrun
  obtain ⟨expected, hexpected, hrun⟩ := ok_of_bind_ok hrun
  obtain ⟨outcomes, houtcomes, hrun⟩ := ok_of_bind_ok hrun
  have htally : Tally.ofOutcomes expected outcomes = tally := congrArg Prod.fst (Except.ok.inj hrun)
  exact ⟨s, expected, outcomes, hs, hexpected, houtcomes, htally.symm⟩

theorem Exit.code_eq_two_iff {result : Except SuiteError (Tally × String)} :
    (ofRun result).code = 2 ↔ ∃ error, result = .error error := by
  rcases result with error | ⟨tally, output⟩
  · simp [ofRun, fatal]
  · have hcode : tally.exitCode ≠ 2 := by
      rw [Tally.exitCode]
      split_ifs <;> omega
    simp [ofRun, hcode]

/-- The tally of a suite's outcomes adds up with its reports, file by file and all together, and
the exit code says whether all their failures are listed. The command line exits with that code, or
with two when its run ends in an error. What is listed can be looked up. -/
theorem exit_reflects_failures {α : Type} [Linkage α] :
    (∀ (s : Suite) (t : FileTree) (config : Config)
        (openDictionary : String → Except SuiteError (Dictionary α)) (outcomes : List CaseOutcome)
        (e : ExpectedFailures), s.run t config openDictionary = .ok outcomes →
      (Tally.ofOutcomes e outcomes).Reflects e outcomes)
    ∧ (∀ (i : Invocation) (t : FileTree),
      ((Exit.ofRun (i.run t)).code = 2 ↔ ∃ error, i.run t = .error error)
      ∧ ∀ tally output, i.run t = .ok (tally, output) →
        (Exit.ofRun (i.run t)).code = tally.exitCode
        ∧ ∃ s expected outcomes, i.selectSuite t = .ok s ∧ i.loadFailures t = .ok expected
          ∧ s.run t i.config (i.openDictionary t) = .ok outcomes
          ∧ tally = .ofOutcomes expected outcomes ∧ tally.Reflects expected outcomes)
    ∧ ∀ (e : ExpectedFailures) (f : CheckFailure),
      ((∃ entry, e.entryFor? f.fileName f.line = some entry) ↔ e.classify f ≠ .regression)
      ∧ ((∃ entry ∈ e.known, e.entryFor? f.fileName f.line = some entry) ↔
        e.classify f = .known) := by
  refine ⟨?_, fun i t => ⟨Exit.code_eq_two_iff, ?_⟩, fun e f => ⟨?_, ?_⟩⟩
  · intro s t config openDictionary outcomes e hrun
    exact Tally.reflects_ofOutcomes e fun report => Suite.adds_of_run hrun
  · intro tally output hrun
    obtain ⟨s, expected, outcomes, hs, hexpected, houtcomes, rfl⟩ := Invocation.run_eq_ok hrun
    have hreflects : (Tally.ofOutcomes expected outcomes).Reflects expected outcomes :=
      Tally.reflects_ofOutcomes expected fun report => Suite.adds_of_run houtcomes
    refine ⟨?_, s, expected, outcomes, hs, hexpected, houtcomes, rfl, hreflects⟩
    rw [hrun, Exit.ofRun]
  · rw [← Option.isSome_iff_exists, ExpectedFailures.entryFor?_isSome_iff, ne_eq,
      ExpectedFailures.classify_eq_regression_iff, not_not]
  · rw [ExpectedFailures.entryFor?_known_iff, ExpectedFailures.classify_eq_known_iff]

def icelandic : Invocation where
  config := Config.standard
  dataDir := "data"
  suite := none
  expectedFailures := "expected-failures.toml"
  discover := false
  lang := some "is"

def englishFailures : ExpectedFailures := ⟨[⟨"parses-en.txt", 3, none, none, none⟩], []⟩

theorem exit_reflects_failures_english :
    let outcomes := [.ran Suite.englishReport, Suite.spellingOutcome]
    let tally := Tally.ofOutcomes englishFailures outcomes
    tally.Reflects englishFailures outcomes ∧ tally = ⟨2, 0, 1, 1, 1⟩
      ∧ (¬ ∀ report ∈ reportsOf outcomes, ∀ f ∈ report.failures, englishFailures.Lists f)
      ∧ (Exit.ofRun (icelandic.run .empty)).code = 0 := by
  intro outcomes tally
  obtain ⟨hsuite, hcommand, -⟩ := exit_reflects_failures (α := RecordedLinkage)
  have hreflects : tally.Reflects englishFailures outcomes :=
    hsuite _ _ _ _ _ englishFailures Suite.run_englishTree
  have htally : tally = ⟨2, 0, 1, 1, 1⟩ := by decide +kernel
  have hicelandic : icelandic.run .empty =
      .ok (.empty, "\n0 checks: 0 passed, 0 expected failures, 0 regressions, 0 skipped\n") := by
    decide +kernel
  obtain ⟨hcode, -⟩ := (hcommand icelandic .empty).2 _ _ hicelandic
  exact ⟨hreflects, htally, hreflects.unclean.mp (by rw [htally]; rfl), hcode⟩

end CommandLine

end LinkageCheck
