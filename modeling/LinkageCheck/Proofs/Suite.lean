import LinkageCheck.Proofs.Corpus.Recorded
import LinkageCheck.Proofs.Run.Requests
import LinkageCheck.Suite

/-! A suite is no more than its cases: it ends as they do when each is a suite of its own, and the
first error among theirs is its error. A case that is skipped does not read its file. -/

namespace LinkageCheck

/-- The case needs spell guessing, and its dictionary or its options rule that out. -/
def SuiteCase.Skips {α : Type} (c : SuiteCase)
    (openDictionary : String → Except SuiteError (Dictionary α)) : Prop :=
  c.requiresSpellGuess = true ∧ ∃ o d, c.parseOptions = .ok o ∧ openDictionary c.lang = .ok d
    ∧ (d.hasSpellGuess = false ∨ o.spellGuess = 0)

namespace Suite

variable {α : Type} [Linkage α] {t : FileTree} {config : Config}
  {openDictionary : String → Except SuiteError (Dictionary α)} {c : SuiteCase} {o : Options}
  {d : Dictionary α} {outcome : CaseOutcome} {e : SuiteError}

/-! ### A case as a suite of its own -/

theorem run_single (t : FileTree) (config : Config)
    (openDictionary : String → Except SuiteError (Dictionary α)) (c : SuiteCase) :
    run ⟨[c]⟩ t config openDictionary =
      (runCase t config openDictionary c).map fun outcome => [outcome] := by
  rw [run, List.mapM_cons]
  rcases runCase t config openDictionary c with e | outcome
  · rfl
  · rfl

@[simp]
theorem run_single_eq_ok_iff :
    run ⟨[c]⟩ t config openDictionary = .ok [outcome] ↔
      runCase t config openDictionary c = .ok outcome := by
  rw [run_single]
  rcases runCase t config openDictionary c with e | outcome <;> simp [Except.map]

@[simp]
theorem run_single_eq_error_iff :
    run ⟨[c]⟩ t config openDictionary = .error e ↔
      runCase t config openDictionary c = .error e := by
  rw [run_single, map_eq_error_iff]

@[simp]
theorem exists_run_single_eq_ok_iff :
    (∃ outcomes, run ⟨[c]⟩ t config openDictionary = .ok outcomes) ↔
      ∃ outcome, runCase t config openDictionary c = .ok outcome := by
  rw [run_single]
  rcases runCase t config openDictionary c with e | outcome <;> simp [Except.map]

/-! ### Skipping -/

omit [Linkage α] in
theorem skipReason?_isSome (v : Overrides) :
    (skipReason? c d (v.apply o)).isSome = true ↔
      c.requiresSpellGuess = true ∧ (d.hasSpellGuess = false ∨ o.spellGuess = 0) := by
  unfold skipReason?
  have hguess : (v.apply o).spellGuess = o.spellGuess := rfl
  cases c.requiresSpellGuess <;> cases d.hasSpellGuess <;> by_cases h : o.spellGuess = 0 <;>
    simp [hguess, h]

theorem runCase_of_skips (h : c.Skips openDictionary) (config : Config) :
    ∃ reason, ∀ t, runCase t config openDictionary c = .ok (.skipped c.name reason) := by
  obtain ⟨hneeds, o, d, ho, hd, hruled⟩ := h
  have hsome : (skipReason? c d (config.overrides.apply o)).isSome = true :=
    (skipReason?_isSome config.overrides).mpr ⟨hneeds, hruled⟩
  obtain ⟨reason, hreason⟩ := Option.isSome_iff_exists.mp hsome
  refine ⟨reason, fun t => ?_⟩
  simp only [runCase, ho, hd, Except.mapError, bind, Except.bind, hreason]
  rfl

theorem runCase_eq_ok (h : runCase t config openDictionary c = .ok outcome) :
    ∃ o d, c.parseOptions = .ok o ∧ openDictionary c.lang = .ok d
      ∧ ((∃ reason, skipReason? c d (config.overrides.apply o) = some reason
          ∧ outcome = .skipped c.name reason)
        ∨ ∃ content report, t.read (c.file config.srcdir) = .ok content
          ∧ (runBytes d config.order config.stopOnFailure (c.file config.srcdir)
              (config.overrides.apply o) content).result = .ok report
          ∧ outcome = .ran report) := by
  unfold runCase at h
  obtain ⟨o, ho, h⟩ := ok_of_bind_ok h
  obtain ⟨d, hd, h⟩ := ok_of_bind_ok h
  refine ⟨o, d, ok_of_mapError_ok ho, hd, ?_⟩
  cases hreason : skipReason? c d (config.overrides.apply o) with
  | some reason =>
    simp only [hreason] at h
    exact .inl ⟨reason, rfl, (Except.ok.inj h).symm⟩
  | none =>
    simp only [hreason] at h
    obtain ⟨report, hreplay, h⟩ := ok_of_bind_ok h
    unfold replay at hreplay
    cases hread : t.read (c.file config.srcdir) with
    | error fault => simp [hread] at hreplay
    | ok content =>
      simp only [hread] at hreplay
      exact .inr ⟨content, report, rfl, ok_of_mapError_ok hreplay, (Except.ok.inj h).symm⟩

theorem skips_of_runCase {name reason : String}
    (h : runCase t config openDictionary c = .ok (.skipped name reason)) :
    c.Skips openDictionary := by
  obtain ⟨o, d, ho, hd, ⟨found, hfound, -⟩ | ⟨_, _, _, _, h⟩⟩ := runCase_eq_ok h
  · obtain ⟨hneeds, hruled⟩ := (skipReason?_isSome config.overrides).mp (by rw [hfound]; rfl)
    exact ⟨hneeds, o, d, ho, hd, hruled⟩
  · cases h

theorem runCase_congr {t t' : FileTree} (h : ¬ c.Skips openDictionary →
      t'.read (c.file config.srcdir) = t.read (c.file config.srcdir)) :
    runCase t' config openDictionary c = runCase t config openDictionary c := by
  by_cases hskips : c.Skips openDictionary
  · obtain ⟨reason, hreason⟩ := runCase_of_skips hskips config
    rw [hreason t, hreason t']
  · simp only [runCase, replay, h hskips]

/-! ### The cases together -/

/-- The suite ends well just when each case does on its own, with the outcomes that the cases have
on their own, and else with the first error of a case on its own. A case is skipped on account of
its own options and dictionary, whatever files there are, and no case sees the file of another. -/
theorem run_cases (t : FileTree) (config : Config)
    (openDictionary : String → Except SuiteError (Dictionary α)) :
    (∀ s : Suite, (∃ outcomes, s.run t config openDictionary = .ok outcomes) ↔
      ∀ c ∈ s.cases, ∃ outcomes, run ⟨[c]⟩ t config openDictionary = .ok outcomes)
    ∧ (∀ (s : Suite) (outcomes : List CaseOutcome),
      s.run t config openDictionary = .ok outcomes ↔
        List.Forall₂ (fun c outcome => run ⟨[c]⟩ t config openDictionary = .ok [outcome])
          s.cases outcomes)
    ∧ (∀ (s : Suite) (e : SuiteError), s.run t config openDictionary = .error e ↔
      ∃ before c after, s.cases = before ++ c :: after
        ∧ (∀ b ∈ before, ∃ outcomes, run ⟨[b]⟩ t config openDictionary = .ok outcomes)
        ∧ run ⟨[c]⟩ t config openDictionary = .error e)
    ∧ (∀ (s s' : Suite) (outcomes : List CaseOutcome), s.cases.Perm s'.cases →
      s.run t config openDictionary = .ok outcomes →
        ∃ outcomes', s'.run t config openDictionary = .ok outcomes'
          ∧ (s.cases.zip outcomes).Perm (s'.cases.zip outcomes'))
    ∧ ∀ c : SuiteCase,
      ((∃ name reason, run ⟨[c]⟩ t config openDictionary = .ok [.skipped name reason]) ↔
        c.Skips openDictionary)
      ∧ ∀ t' : FileTree, (¬ c.Skips openDictionary →
          t'.read (c.file config.srcdir) = t.read (c.file config.srcdir)) →
        run ⟨[c]⟩ t' config openDictionary = run ⟨[c]⟩ t config openDictionary := by
  simp only [run_single_eq_ok_iff, run_single_eq_error_iff, exists_run_single_eq_ok_iff]
  refine ⟨fun s => exists_mapM_eq_ok_iff, fun s outcomes => mapM_eq_ok_iff,
    fun s e => mapM_eq_error_iff, ?_, fun c => ⟨?_, ?_⟩⟩
  · intro s s' outcomes hperm hrun
    have hcases := mapM_eq_ok_iff.mp hrun
    obtain ⟨outcomes', hcases', hzip⟩ := forall₂_perm hperm hcases
    exact ⟨outcomes', mapM_eq_ok_iff.mpr hcases', hzip⟩
  · constructor
    · rintro ⟨name, reason, h⟩
      exact skips_of_runCase h
    · intro hskips
      obtain ⟨reason, hreason⟩ := runCase_of_skips hskips config
      exact ⟨c.name, reason, hreason t⟩
  · intro t' hread
    rw [run_single, run_single, runCase_congr hread]

def englishTree : FileTree := FileTree.empty.put "parses-en.txt" (.file treeFile)

def englishConfig : Config := { Config.standard with order := .engine }

def openTreeless (_ : String) : Except SuiteError (Dictionary RecordedLinkage) := .ok (ofTrees [])

def spellingCase : SuiteCase :=
  { SuiteCase.ofLang "en" with
    desc := some "pos-spell"
    requiresSpellGuess := true
    options := [("spell_guess", .integer 99)] }

def spellingOutcome : CaseOutcome :=
  .skipped "parses-pos-spell-en.txt" "dictionary has no spell guesser"

def englishReport : Report :=
  ⟨"./parses-en.txt", 2, 2, 0, [⟨"./parses-en.txt", 3, some "hi", 1, .noLinkage .constituents⟩,
    ⟨"./parses-en.txt", 9, some "ho", 1, .noLinkage .constituents⟩], false⟩

theorem run_englishTree : Suite.standard.run englishTree englishConfig openTreeless =
    .ok [.ran englishReport, spellingOutcome] := by
  decide +kernel

theorem run_cases_english : ∃ outcomes,
    run ⟨standard.cases.reverse⟩ englishTree englishConfig openTreeless = .ok outcomes
      ∧ (standard.cases.zip [.ran englishReport, spellingOutcome]).Perm
        (standard.cases.reverse.zip outcomes)
      ∧ spellingCase.Skips openTreeless
      ∧ run ⟨[spellingCase]⟩ .empty englishConfig openTreeless = .ok [spellingOutcome] := by
  obtain ⟨-, -, -, hperm, hcase⟩ := run_cases englishTree englishConfig openTreeless
  obtain ⟨hskipped, htree⟩ := hcase spellingCase
  obtain ⟨outcomes, hreversed, hzip⟩ :=
    hperm standard ⟨standard.cases.reverse⟩ _ (List.reverse_perm _).symm run_englishTree
  have halone : run ⟨[spellingCase]⟩ englishTree englishConfig openTreeless =
      .ok [spellingOutcome] := by
    decide +kernel
  have hskips : spellingCase.Skips openTreeless := hskipped.mp ⟨_, _, halone⟩
  exact ⟨outcomes, hreversed, hzip, hskips,
    (htree .empty fun hnot => absurd hskips hnot).trans halone⟩

end Suite

end LinkageCheck
