import LinkageCheck.Proofs.Run.Mirrored
import LinkageCheck.Proofs.Run.Reached
import LinkageCheck.Proofs.Run.Requests

/-! No record carries anything over to the next one but the options: behind the lines of another
file, a file that begins with a sentence goes as it does on its own. -/

namespace LinkageCheck

variable {α : Type} [Linkage α]

/-- The line goes back to the options that the run started with. -/
def Line.Resets (l : Line) : Prop :=
  l.opcode = .directive ∧ Directive.read l.text = .ok (.call "reset" [])

theorem Directive.apply_of_ne_reset {directive : Directive} (h : directive ≠ .call "reset" [])
    (baseline baseline' o : Options) :
    directive.apply baseline o = directive.apply baseline' o := by
  cases directive with
  | assign name value => rfl
  | call name arguments =>
    simp only [apply]
    by_cases hname : name = "reset"
    · have harguments : arguments.isEmpty = false := by
        rw [List.isEmpty_eq_false_iff]
        rintro rfl
        exact h (by rw [hname])
      rw [if_pos hname, if_pos hname, harguments]
      rfl
    · rw [if_neg hname, if_neg hname]

theorem Line.direct_of_not_resets {l : Line} (hopcode : l.opcode = .directive) (h : ¬ l.Resets)
    (baseline baseline' o : Options) : l.direct baseline o = l.direct baseline' o := by
  rw [direct, direct]
  rcases hread : Directive.read l.text with e | directive
  · rfl
  · refine directive.apply_of_ne_reset (fun hreset => h ⟨hopcode, ?_⟩) baseline baseline' o
    rw [hread, hreset]

theorem Cursor.start_alike (d : Dictionary α) (order : CandidateOrder) (c c' : Cursor α)
    (text : String) (o : Options) :
    (c.start d text o order).1 = (c'.start d text o order).1
      ∧ (c.start d text o order).2.Alike (c'.start d text o order).2 := by
  rw [start, start]
  rcases d.parse text o with e | candidates
  · exact ⟨rfl, alike_of_standing rfl⟩
  · exact ⟨rfl, alike_of_standing rfl⟩

theorem Validator.check_sentence {v : Validator} {sections : Sections}
    (h : sections.pending = []) : v.check sections .sentence = .ok ⟨some .sentence⟩ := by
  rw [check, h]
  rfl

theorem Report.empty_behind {before : Report} (h : before.stoppedEarly = false) (n : Nat) :
    (Report.empty before.path).behind before n = before := by
  rw [behind, empty, List.map_nil, List.append_nil, ← h]
  rfl

namespace RunSetup

variable {r : RunSetup α} {s s' : RunState α} {ls : List Line} {l : Line}

theorem line_of_sentence (hs : s.sections.WellPlaced) (hpending : s.sections.pending = [])
    (hstopped : s.report.stoppedEarly = false) (n : Nat) (hopcode : l.opcode = .sentence) :
    r.line s l =
      r.line ((RunState.initial s.report.path s.options).behind s.report n s.cursor) l := by
  have hcheck : s.validator.check s.sections .sentence = .ok ⟨some .sentence⟩ :=
    Validator.check_sentence hpending
  have hcheck' : Validator.initial.check Sections.closed .sentence = .ok ⟨some .sentence⟩ :=
    Validator.check_sentence rfl
  have hreopened : s.sections.startAll = Sections.closed.startAll := by
    rw [Sections.startAll_eq_ofCollected hs]
    rfl
  simp only [line, sentence, RunState.behind, RunState.initial, hopcode, hcheck, hcheck', hreopened,
    Report.empty_behind hstopped]

theorem lines_of_sentence {items : List (Except ScanError Line)} (hs : s.sections.WellPlaced)
    (hpending : s.sections.pending = []) (hstopped : s.report.stoppedEarly = false) (n : Nat)
    (hfirst : items.head? = some (.ok l)) (hopcode : l.opcode = .sentence) :
    r.lines s items =
      r.lines ((RunState.initial s.report.path s.options).behind s.report n s.cursor) items := by
  obtain ⟨rest, rfl⟩ := List.head?_eq_some_iff.mp hfirst
  rw [lines, lines, line_of_sentence hs hpending hstopped n hopcode]
  rfl

end RunSetup

/-- A failure, a skipped sentence or a section left empty behind `a` has no effect on `b`. -/
theorem runBytes_append {d : Dictionary α} {order : CandidateOrder} {path : String} {o : Options}
    {a b : List UInt8} {ls : List Line} {s : RunState α} {l : Line}
    (hend : ∀ byte ∈ a.getLast?, byte = 10) (hscan : scan a = ls.map .ok)
    (hgoes : RunSetup.Goes ⟨d, order, false, path, o⟩ (.initial path o) ls s)
    (hpending : s.sections.pending = []) (hfirst : (scan b).head? = some (.ok l))
    (hsentence : l.opcode = .sentence) (hreset : ∀ m, .ok m ∈ scan b → ¬ m.Resets) :
    runBytes d order false path o (a ++ b) =
      (runBytes d order false path s.options b).behind s.report ls.length := by
  have hplaced : (RunState.initial path o : RunState α).sections.WellPlaced :=
    Sections.wellPlaced_closed
  obtain ⟨hpath, hstopped⟩ := hgoes.report hplaced
  have hmirrors : RunSetup.Mirrors ⟨d, order, false, path, o⟩ ⟨d, order, false, path, s.options⟩ :=
    ⟨rfl, rfl, Cursor.start_alike d order⟩
  have hhead : ((scan b).map (itemDown ls.length)).head? = some (.ok (l.down ls.length)) := by
    rw [List.head?_map, hfirst]
    rfl
  have hfresh := RunSetup.lines_of_sentence (r := ⟨d, order, false, path, o⟩)
    (hgoes.wellPlaced hplaced) hpending hstopped ls.length hhead hsentence
  rw [runBytes, scan_append hend, hscan, hgoes.lines_append, List.length_map, hfresh, hpath]
  refine hmirrors.lines (.inl ⟨l, hfirst, hsentence⟩) fun m hm hopcode => ?_
  exact m.direct_of_not_resets hopcode (hreset m hm) _ _

def failedRecord : List UInt8 := Text.Utf8.encode "Ihi\nCT\nC\nN\n".toList

def heldRecord : List UInt8 := Text.Utf8.encode "Iho\nCS\nC\nN\nCT\nC\n".toList

theorem runBytes_append_trees : ∃ s : RunState RecordedLinkage,
    s.skipping = true ∧ s.report.failures ≠ [] ∧ s.sections.pending = []
      ∧ runBytes (ofTrees ["S", "T"]) .engine false "t" .standard (failedRecord ++ heldRecord) =
        (runBytes (ofTrees ["S", "T"]) .engine false "t" s.options heldRecord).behind
          s.report 4 := by
  let r : RunSetup RecordedLinkage := ⟨ofTrees ["S", "T"], .engine, false, "t", .standard⟩
  let ls : List Line := [⟨1, .sentence, "hi\n"⟩, ⟨2, .constituents, "T\n"⟩,
    ⟨3, .constituents, "\n"⟩, ⟨4, .next, "\n"⟩]
  have hthrough : (r.through (.initial "t" .standard) ls).any (fun s =>
      s.skipping ∧ s.report.failures ≠ [] ∧ s.sections.pending = []) = true := by
    decide +kernel
  obtain ⟨s, hs, hstate⟩ := Option.any_eq_true _ _ |>.mp hthrough
  obtain ⟨hskipping, hfailures, hpending⟩ := of_decide_eq_true hstate
  have hundirected : ∀ item ∈ scan heldRecord, item.toOption.all (·.opcode ≠ .directive) := by
    decide +kernel
  have hend : ∀ byte ∈ failedRecord.getLast?, byte = 10 := by decide +kernel
  have hscan : scan failedRecord = ls.map .ok := by decide +kernel
  have hfirst : (scan heldRecord).head? = some (.ok ⟨1, .sentence, "ho\n"⟩) := by decide +kernel
  refine ⟨s, hskipping, hfailures, hpending, ?_⟩
  refine runBytes_append hend hscan (RunSetup.goes_of_through hs) hpending hfirst rfl ?_
  rintro m hm ⟨hopcode, -⟩
  exact of_decide_eq_true (hundirected _ hm) hopcode

end LinkageCheck
