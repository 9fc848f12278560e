import LinkageCheck.Proofs.Corpus.Recorded
import LinkageCheck.Proofs.Cursor
import LinkageCheck.Proofs.Run.Reached
import LinkageCheck.Proofs.Text.Blank
import Mathlib.Algebra.GroupWithZero.Nat

/-! A file recorded from a dictionary passes on that dictionary. The run is followed section by
section: each one collects the rendering that it was written from, and its comparison leaves the
cursor where it stands. -/

namespace LinkageCheck

variable {α : Type} [Linkage α]

/-! ### Recording -/

def recordedLinkage (x : α) : List WrittenLine :=
  SectionKind.all.flatMap fun kind => (Linkage.recorded x kind).map (kind.lineOpcode, ·)

/-- Linkages parted by next lines, or the two lines which say that there is none. -/
def recordedCandidates : List α → List WrittenLine
  | [] => [(.diagram, "C\n"), (.diagram, "C\n")]
  | x :: xs => recordedLinkage x ++ xs.flatMap fun y => (.next, "\n") :: recordedLinkage y

def recordedSentence (text : String) (xs : List α) : List WrittenLine :=
  (.sentence, text ++ "\n") :: recordedCandidates xs

/-- The file that records what a dictionary offers for these sentences. -/
def recording (d : Dictionary α) (order : CandidateOrder) (o : Options) (texts : List String) :
    List UInt8 :=
  write (texts.flatMap fun text => recordedSentence text (d.candidates order o text))

/-- Three for each candidate, and one for a sentence without candidates. -/
def comparisons (xs : List α) : Nat := if xs.isEmpty then 1 else 3 * xs.length

def OneLine (text : String) : Prop := '\n' ∉ text.toList ∧ text.toList.getLast? ≠ some '\r'

instance (text : String) : Decidable (OneLine text) := inferInstanceAs (Decidable (_ ∧ _))

theorem sentenceText_of_oneLine {text : String} (h : OneLine text) (number : Nat) :
    Line.sentenceText ⟨number, .sentence, text ++ "\n"⟩ = text := by
  have hend : ("\n" : String).toList = ['\n'] := by decide
  rw [Line.sentenceText, String.toList_append, hend, Text.dropTail_append]
  · exact String.ofList_toList
  · intro c hc
    have hfeed : c ≠ '\n' := by
      rintro rfl
      exact h.1 (List.mem_of_getLast? hc)
    have hreturn : c ≠ '\r' := by
      rintro rfl
      exact h.2 hc
    rw [beq_false_of_ne hfeed, beq_false_of_ne hreturn]
    rfl
  · intro c hc
    rw [List.mem_singleton.mp hc]
    rfl

/-- The dictionary answers this sentence for good, and what it offers can be recorded. -/
def Dictionary.Recordable (d : Dictionary α) (order : CandidateOrder) (o : Options)
    (text : String) : Prop :=
  (∃ candidates, d.parse text o = .ok candidates ∧ candidates.StaysExhausted)
    ∧ ∀ x ∈ d.candidates order o text, LinkageCheck.Recordable x

/-! ### Runs that go on -/

def RunState.IdleBut (s : RunState α) (kind : SectionKind) : Prop :=
  ∀ other ≠ kind, (s.sections.collected other).any (· != "") = false

omit [Linkage α] in
theorem RunState.IdleBut.unfinished?_eq {s : RunState α} {kind : SectionKind}
    (h : s.IdleBut kind) {opcode : Opcode} (hopcode : opcode.section? = some kind) :
    s.outline.unfinished? opcode = none := by
  rw [Outline.unfinished?_eq_none, hopcode]
  intro other hother
  exact h other fun heq => hother (congrArg some heq.symm)

omit [Linkage α] in
theorem RunState.idleBut_of_pending {s : RunState α} (h : s.outline.pending = [])
    (kind : SectionKind) : s.IdleBut kind := by
  intro other _
  exact Outline.pending_eq_nil.mp h other

namespace RunSetup

variable {r : RunSetup α} {s s' : RunState α}

omit [Linkage α] in
theorem finish_of_outline (h : s.outline.finish = .ok ()) :
    r.finish s = ⟨.ok s.report, s.options⟩ := by
  obtain ⟨hpending, opcode, hrecord, hsection⟩ := Outline.finish_eq_ok.mp h
  have hvalidator : s.validator.lastRecord = some opcode := hrecord
  have hsections : s.sections.pending = [] := hpending
  rw [finish, Validator.finish, hsections, hvalidator]
  simp only [List.head?_nil, hsection, if_true]

structure Holds (r : RunSetup α) (s : RunState α) (sentences checks : Nat) : Prop where
  placed : s.sections.WellPlaced
  options : s.options = r.baseline
  going : s.skipping = false
  report : s.report = ⟨r.path, sentences, checks, checks, [], false⟩

/-! ### Sections -/

variable {sentences checks : Nat} {kind : SectionKind} {closing : Closing} {earlier : String}

theorem Holds.collect (h : r.Holds s sentences checks) {l : Line}
    (hopcode : l.opcode.section? = some kind) (hopen : s.sections.collected kind = some earlier)
    (hidle : s.IdleBut kind)
    (hrule : kind.closing? earlier l.text = none) :
    ∃ s', r.line s l = .ok (.goOn, s') ∧ r.Holds s' sentences checks ∧ s'.cursor = s.cursor
      ∧ s'.sections.collected =
        Function.update s.sections.collected kind (some (earlier ++ l.text)) := by
  have hfree := hidle.unfinished?_eq hopcode
  refine ⟨_, line_eq_settle h.placed hfree (.collect hopcode hopen hrule), ?_, rfl, ?_⟩
  · exact ⟨Sections.wellPlaced_ofCollected _, h.options, h.going, h.report⟩
  · exact Sections.collected_ofCollected _

theorem Holds.close (h : r.Holds s sentences checks) {l : Line}
    (hopcode : l.opcode.section? = some kind) (hopen : s.sections.collected kind = some earlier)
    (hidle : s.IdleBut kind)
    (hrule : kind.closing? earlier l.text = some closing)
    (hcompare : closing.compare s.cursor kind = (.ok (), s.cursor)) :
    ∃ s', r.line s l = .ok (.goOn, s') ∧ r.Holds s' sentences (checks + 1) ∧ s'.cursor = s.cursor
      ∧ s'.sections.collected = Function.update s.sections.collected kind none
      ∧ s'.outline.finish = .ok () := by
  have hfree := hidle.unfinished?_eq hopcode
  have hact : Outline.Act r.baseline (s.outline.arrive l) l _ _ := .close hopcode hopen hrule
  have hline := line_eq_settle h.placed hfree hact
  rw [settle] at hline
  simp only [RunState.follow, h.going, Bool.false_eq_true, if_false, hcompare] at hline
  have hcollected := Sections.collected_ofCollected
    (Function.update s.sections.collected kind none)
  refine ⟨_, hline, ⟨Sections.wellPlaced_ofCollected _, h.options, rfl, ?_⟩, rfl, hcollected, ?_⟩
  · simp only [RunState.pass, h.report]
  · refine Outline.finish_eq_ok.mpr ⟨Outline.pending_eq_nil.mpr fun other => ?_, l.opcode, ?_, ?_⟩
    · show ((Sections.ofCollected (Function.update s.sections.collected kind none)).collected
        other).any (· != "") = false
      rw [hcollected]
      by_cases hother : other = kind
      · rw [hother, Function.update_self]
        rfl
      · rw [Function.update_of_ne hother]
        exact hidle other hother
    · exact if_pos (Opcode.isRecord_of_section hopcode).1
    · rw [hopcode]
      rfl

theorem Holds.block {texts : List String} (hends : EndsIn kind closing earlier texts)
    {opcode : Opcode} (hopcode : opcode.section? = some kind) (number : Nat)
    (h : r.Holds s sentences checks) (hopen : s.sections.collected kind = some earlier)
    (hidle : s.IdleBut kind)
    (hcompare : closing.compare s.cursor kind = (.ok (), s.cursor)) :
    ∃ s', r.Goes s (numbered number (texts.map (opcode, ·))) s'
      ∧ r.Holds s' sentences (checks + 1) ∧ s'.cursor = s.cursor
      ∧ s'.sections.collected = Function.update s.sections.collected kind none
      ∧ s'.outline.finish = .ok () := by
  induction hends generalizing s number with
  | last hrule =>
    obtain ⟨s', hline, hs', hcursor, hcollected, hfinish⟩ :=
      h.close (l := ⟨number, opcode, _⟩) hopcode hopen hidle hrule hcompare
    exact ⟨s', .cons hline (.nil s'), hs', hcursor, hcollected, hfinish⟩
  | more hrule hrest ih =>
    obtain ⟨next, hline, hnext, hcursor, hcollected⟩ :=
      h.collect (l := ⟨number, opcode, _⟩) hopcode hopen hidle hrule
    have hopened := congrFun hcollected kind
    rw [Function.update_self] at hopened
    obtain ⟨s', hgoes, hs', hcursor', hcollected', hfinish⟩ := ih (number + 1) hnext hopened
      (fun other hother => by
        rw [hcollected, Function.update_of_ne hother]
        exact hidle other hother)
      (by rw [hcursor]; exact hcompare)
    refine ⟨s', .cons hline hgoes, hs', hcursor'.trans hcursor, ?_, hfinish⟩
    rw [hcollected', hcollected, Function.update_idem]

/-! ### Records -/

theorem compare_rendering {c : Cursor α} {x : α} (h : c.current = some x) (kind : SectionKind) :
    (Closing.text (Linkage.rendering x kind)).compare c kind = (.ok (), c) := by
  cases kind with
  | diagram =>
    simp [Closing.compare, Comparison.checkDiagram, h, Comparison.compare, Linkage.rendering]
  | constituents =>
    simp [Closing.compare, Comparison.checkConstituents, h, Comparison.compare, Linkage.rendering]
  | wordPositions =>
    -- marked or not, positions that are equal end the comparison at the current linkage
    show Comparison.checkPositions c (Linkage.positions x) = _
    rw [Comparison.checkPositions]
    split
    · next hnone => exact absurd (h.symm.trans hnone) (Option.some_ne_none x)
    · next y hsome =>
      obtain rfl : x = y := Option.some.inj (h.symm.trans hsome)
      simp [Comparison.compare]

theorem Holds.sections {x : α} (hx : Recordable x) (hcurrent : s.cursor.current = some x)
    (kinds : List SectionKind) (hnodup : kinds.Nodup) (number : Nat)
    (h : r.Holds s sentences checks)
    (hopen : ∀ kind ∈ kinds, s.sections.collected kind = some "")
    (hidle : s.outline.pending = []) (hempty : kinds = [] → s.outline.finish = .ok ()) :
    ∃ s', r.Goes s (numbered number (kinds.flatMap fun kind =>
        (Linkage.recorded x kind).map (kind.lineOpcode, ·))) s'
      ∧ r.Holds s' sentences (checks + kinds.length) ∧ s'.cursor = s.cursor
      ∧ s'.outline.finish = .ok () := by
  induction kinds generalizing s number checks with
  | nil => exact ⟨s, .nil s, h, rfl, hempty rfl⟩
  | cons kind kinds ih =>
    obtain ⟨hfresh, hnodup⟩ := List.nodup_cons.mp hnodup
    obtain ⟨hopen, hlater⟩ := List.forall_mem_cons.mp hopen
    obtain ⟨next, hgoes, hnext, hcursor, hcollected, hfinish⟩ :=
      h.block (hx.endsIn kind) kind.section?_lineOpcode number hopen
        (RunState.idleBut_of_pending hidle kind) (compare_rendering hcurrent kind)
    -- the sections still to come have taken nothing of this one
    have hnextOpen : ∀ other ∈ kinds, next.sections.collected other = some "" := by
      intro other hother
      have hne : other ≠ kind := fun heq => hfresh (heq ▸ hother)
      rw [hcollected, Function.update_of_ne hne]
      exact hlater other hother
    obtain ⟨s', hgoes', hs', hcursor', hfinish'⟩ :=
      ih (hcursor ▸ hcurrent) hnodup (number + (Linkage.recorded x kind).length) hnext hnextOpen
        (Outline.finish_eq_ok.mp hfinish).1 fun _ => hfinish
    refine ⟨s', ?_, ?_, hcursor'.trans hcursor, hfinish'⟩
    · rw [List.flatMap_cons, numbered_append, List.length_map]
      exact hgoes.append hgoes'
    · rw [List.length_cons, ← Nat.add_assoc, Nat.add_right_comm]
      exact hs'

theorem Holds.record {x : α} (hx : Recordable x) (hcurrent : s.cursor.current = some x)
    (number : Nat) (h : r.Holds s sentences checks)
    (hopen : s.sections.collected = fun _ => some "") :
    ∃ s', r.Goes s (numbered number (recordedLinkage x)) s'
      ∧ r.Holds s' sentences (checks + 3) ∧ s'.cursor = s.cursor ∧ s'.outline.finish = .ok () := by
  have hpending : s.outline.pending = [] := by
    rw [Outline.pending_eq_nil]
    intro kind
    show (s.sections.collected kind).any (· != "") = false
    rw [hopen]
    rfl
  exact h.sections hx hcurrent SectionKind.all (by decide) number
    (fun kind _ => congrFun hopen kind) hpending fun hnil => absurd hnil (List.cons_ne_nil _ _)

theorem Holds.next {xs : List α} {i : Nat} (hcursor : s.cursor.At xs i) (hi : i + 1 < xs.length)
    (number : Nat) (h : r.Holds s sentences checks) (hfinish : s.outline.finish = .ok ()) :
    ∃ s', r.line s ⟨number, .next, "\n"⟩ = .ok (.goOn, s') ∧ r.Holds s' sentences checks
      ∧ s'.cursor.At xs (i + 1) ∧ s'.sections.collected = fun _ => some "" := by
  have hfree := Outline.unfinished?_of_pending (Outline.finish_eq_ok.mp hfinish).1 .next
  have hadvance := hcursor.advance
  rw [Nat.min_eq_left (Nat.le_of_lt hi)] at hadvance
  have hsome : s.cursor.advance.current.isSome = true := by
    rw [hadvance.current, List.getElem?_eq_getElem hi]
    rfl
  have hact : Outline.Act r.baseline (s.outline.arrive ⟨number, .next, "\n"⟩)
      ⟨number, .next, "\n"⟩ _ _ := .next rfl hcursor.isStarted
  have hline := line_eq_settle h.placed hfree hact
  rw [settle] at hline
  simp only [RunState.follow, h.going, Bool.false_eq_true, if_false, hsome, if_true] at hline
  exact ⟨_, hline, ⟨Sections.wellPlaced_ofCollected _, h.options, rfl, h.report⟩, hadvance,
    Sections.collected_ofCollected _⟩

theorem Holds.records {xs : List α} (hxs : ∀ x ∈ xs, Recordable x) (later : List α) {i : Nat}
    (hlater : xs.drop (i + 1) = later) (hcursor : s.cursor.At xs i) (number : Nat)
    (h : r.Holds s sentences checks) (hfinish : s.outline.finish = .ok ()) :
    ∃ s', r.Goes s (numbered number
        (later.flatMap fun y => (.next, "\n") :: recordedLinkage y)) s'
      ∧ r.Holds s' sentences (checks + 3 * later.length) ∧ s'.outline.finish = .ok () := by
  induction later generalizing s i number checks with
  | nil => exact ⟨s, .nil s, h, hfinish⟩
  | cons y later ih =>
    -- the next line moves the cursor to the place that `y` holds
    have hi : i + 1 < xs.length := by
      rw [← Nat.not_le, ← List.drop_eq_nil_iff, hlater]
      exact List.cons_ne_nil _ _
    have hy := List.drop_eq_getElem_cons hi
    rw [hlater] at hy
    obtain ⟨rfl, hrest⟩ := List.cons.inj hy
    obtain ⟨next, hline, hnext, hat, hopen⟩ := h.next hcursor hi number hfinish
    have hcurrent := hat.current
    rw [List.getElem?_eq_getElem hi] at hcurrent
    obtain ⟨s₁, hgoes₁, hs₁, hcursor₁, hfinish₁⟩ :=
      hnext.record (hxs _ (List.getElem_mem hi)) hcurrent (number + 1) hopen
    obtain ⟨s', hgoes', hs', hfinish'⟩ := ih hrest.symm (hcursor₁ ▸ hat)
      (number + 1 + (recordedLinkage xs[i + 1]).length) hs₁ hfinish₁
    refine ⟨s', ?_, ?_, hfinish'⟩
    · rw [List.flatMap_cons, List.cons_append, numbered, numbered_append]
      exact .cons hline (hgoes₁.append hgoes')
    · rw [List.length_cons, Nat.mul_succ, Nat.add_comm (3 * later.length), ← Nat.add_assoc]
      exact hs'

theorem endsIn_noLinkage : EndsIn .diagram .noLinkage "" ["C\n", "C\n"] :=
  .more (by decide) (.last (by decide))

theorem Holds.candidates {xs : List α} (hxs : ∀ x ∈ xs, Recordable x)
    (hcursor : s.cursor.At xs 0) (number : Nat) (h : r.Holds s sentences checks)
    (hopen : s.sections.collected = fun _ => some "") :
    ∃ s', r.Goes s (numbered number (recordedCandidates xs)) s'
      ∧ r.Holds s' sentences (checks + comparisons xs) ∧ s'.outline.finish = .ok () := by
  have hcurrent := hcursor.current
  rcases xs with _ | ⟨x, xs⟩
  · have hnone : Closing.noLinkage.compare s.cursor .diagram = (.ok (), s.cursor) := by
      rw [Closing.compare, Comparison.checkNone, hcurrent]
      rfl
    have hidle : s.IdleBut .diagram := by
      intro other _
      rw [hopen]
      rfl
    obtain ⟨s', hgoes, hs', -, -, hfinish⟩ := h.block endsIn_noLinkage
      (SectionKind.section?_lineOpcode .diagram) number (congrFun hopen _) hidle hnone
    exact ⟨s', hgoes, hs', hfinish⟩
  · obtain ⟨s₁, hgoes₁, hs₁, hcursor₁, hfinish₁⟩ :=
      h.record (hxs x List.mem_cons_self) hcurrent number hopen
    obtain ⟨s', hgoes', hs', hfinish'⟩ := hs₁.records hxs xs rfl (hcursor₁ ▸ hcursor)
      (number + (recordedLinkage x).length) hfinish₁
    refine ⟨s', ?_, ?_, hfinish'⟩
    · rw [recordedCandidates, numbered_append]
      exact hgoes₁.append hgoes'
    · have hcount : comparisons (x :: xs) = 3 + 3 * xs.length := by
        rw [comparisons, List.length_cons, Nat.mul_succ, Nat.add_comm]
        rfl
      rw [hcount, ← Nat.add_assoc]
      exact hs'

/-! ### Sentences -/

theorem Holds.start {text : String} (htext : OneLine text)
    (hrecords : r.dictionary.Recordable r.order r.baseline text) (number : Nat)
    (h : r.Holds s sentences checks) (hidle : s.outline.pending = []) :
    ∃ s', r.line s ⟨number, .sentence, text ++ "\n"⟩ = .ok (.goOn, s')
      ∧ r.Holds s' (sentences + 1) checks
      ∧ s'.cursor.At (r.dictionary.candidates r.order r.baseline text) 0
      ∧ s'.sections.collected = fun _ => some "" := by
  obtain ⟨⟨candidates, hparse, hexhausted⟩, -⟩ := hrecords
  have hfree := Outline.unfinished?_of_pending hidle .sentence
  have hact : Outline.Act r.baseline (s.outline.arrive ⟨number, .sentence, text ++ "\n"⟩)
      ⟨number, .sentence, text ++ "\n"⟩ _ _ := .sentence rfl
  have hline := line_eq_settle h.placed hfree hact
  rw [sentenceText_of_oneLine htext, settle] at hline
  have hoptions : (s.outline.arrive ⟨number, .sentence, text ++ "\n"⟩).options = r.baseline :=
    h.options
  obtain ⟨hstart, hcursor⟩ := Cursor.at_start s.cursor r.order hparse hexhausted
  rcases hstarted : s.cursor.start r.dictionary text r.baseline r.order with ⟨outcome, cursor⟩
  rw [hstarted] at hstart hcursor
  obtain rfl : outcome = .ok () := hstart
  simp only [RunState.follow, Outline.reopen, hoptions, hstarted] at hline
  refine ⟨_, hline, ⟨Sections.wellPlaced_ofCollected _, rfl, rfl, ?_⟩, ?_,
    Sections.collected_ofCollected _⟩
  · simp only [h.report]
  · rw [Dictionary.candidates_of_parse hparse]
    exact hcursor

theorem Holds.file {texts : List String} (htexts : ∀ text ∈ texts, OneLine text)
    (hrecords : ∀ text ∈ texts, r.dictionary.Recordable r.order r.baseline text) (number : Nat)
    (h : r.Holds s sentences checks) (hidle : s.outline.pending = [])
    (hempty : texts = [] → s.outline.finish = .ok ()) :
    ∃ s', r.Goes s (numbered number (texts.flatMap fun text =>
        recordedSentence text (r.dictionary.candidates r.order r.baseline text))) s'
      ∧ r.Holds s' (sentences + texts.length) (checks + (texts.map fun text =>
        comparisons (r.dictionary.candidates r.order r.baseline text)).sum)
      ∧ s'.outline.finish = .ok () := by
  induction texts generalizing s number sentences checks with
  | nil => exact ⟨s, .nil s, h, hempty rfl⟩
  | cons text texts ih =>
    obtain ⟨htext, htexts⟩ := List.forall_mem_cons.mp htexts
    obtain ⟨hrecord, hrecords⟩ := List.forall_mem_cons.mp hrecords
    obtain ⟨s₁, hline, hs₁, hcursor, hopen⟩ := h.start htext hrecord number hidle
    obtain ⟨s₂, hgoes, hs₂, hfinish⟩ := hs₁.candidates hrecord.2 hcursor (number + 1) hopen
    obtain ⟨s', hgoes', hs', hfinish'⟩ := ih htexts hrecords (number + 1 +
      (recordedCandidates (r.dictionary.candidates r.order r.baseline text)).length) hs₂
      (Outline.finish_eq_ok.mp hfinish).1 fun _ => hfinish
    refine ⟨s', ?_, ?_, hfinish'⟩
    · rw [List.flatMap_cons, recordedSentence, List.cons_append, numbered, numbered_append]
      exact .cons hline (hgoes.append hgoes')
    · rw [List.length_cons, List.map_cons, List.sum_cons, ← Nat.add_assoc, ← Nat.add_assoc,
        Nat.add_right_comm]
      exact hs'

end RunSetup

/-! ### Files -/

theorem terminated_of_mem_recordedLinkage {x : α} (hx : Recordable x) :
    ∀ l ∈ recordedLinkage x, l.Terminated := by
  intro l hl
  obtain ⟨kind, -, hl⟩ := List.mem_flatMap.mp hl
  obtain ⟨text, htext, rfl⟩ := List.mem_map.mp hl
  exact hx.terminated htext

theorem terminated_of_mem_recordedCandidates {xs : List α} (hxs : ∀ x ∈ xs, Recordable x) :
    ∀ l ∈ recordedCandidates xs, l.Terminated := by
  intro l hl
  rcases xs with _ | ⟨x, xs⟩
  · have hmark : Text.Terminated (· == '\n') ("C\n" : String).toList :=
      ⟨['C'], '\n', by decide, BEq.rfl, fun c hc => by rw [List.mem_singleton.mp hc]; rfl⟩
    rcases List.mem_cons.mp hl with rfl | hl
    · exact hmark
    · rw [List.mem_singleton.mp hl]
      exact hmark
  · rcases List.mem_append.mp hl with hl | hl
    · exact terminated_of_mem_recordedLinkage (hxs x List.mem_cons_self) l hl
    · obtain ⟨y, hy, hl⟩ := List.mem_flatMap.mp hl
      rcases List.mem_cons.mp hl with rfl | hl
      · exact terminated_blank
      · exact terminated_of_mem_recordedLinkage (hxs y (List.mem_cons_of_mem _ hy)) l hl

theorem runBytes_recording {d : Dictionary α} {order : CandidateOrder} {o : Options}
    {texts : List String} (hne : texts ≠ []) (htexts : ∀ text ∈ texts, OneLine text)
    (hrecords : ∀ text ∈ texts, d.Recordable order o text) (stop : Bool) (path : String) :
    let n := (texts.map fun text => comparisons (d.candidates order o text)).sum
    (runBytes d order stop path o (recording d order o texts)).result =
      .ok ⟨path, texts.length, n, n, [], false⟩ := by
  intro n
  have hterminated : ∀ l ∈ texts.flatMap fun text =>
      recordedSentence text (d.candidates order o text), l.Terminated := by
    intro l hl
    obtain ⟨text, htext, hl⟩ := List.mem_flatMap.mp hl
    rcases List.mem_cons.mp hl with rfl | hl
    · exact terminated_concat (htexts text htext).1
    · exact terminated_of_mem_recordedCandidates (hrecords text htext).2 l hl
  let r : RunSetup α := ⟨d, order, stop, path, o⟩
  have hinitial : r.Holds (.initial path o) 0 0 := ⟨Sections.wellPlaced_closed, rfl, rfl, rfl⟩
  have hidle : (RunState.initial path o : RunState α).outline.pending = [] := rfl
  obtain ⟨s', hgoes, hs', hfinish⟩ := hinitial.file htexts hrecords 1 hidle
    fun hnil => absurd hnil hne
  have hrun : runBytes d order stop path o (recording d order o texts) = r.finish s' := by
    rw [runBytes, recording, scan_write hterminated]
    exact hgoes.lines_eq
  rw [hrun, RunSetup.finish_of_outline hfinish, hs'.report, Nat.zero_add, Nat.zero_add]

namespace RecordedDictionary

theorem recordable_of_contains {corpus : Corpus} {d : RecordedDictionary}
    (hcorpus : ofCorpus corpus = .ok d) {order : CandidateOrder} {o : Options} {text : String}
    (hknown : d.contains text = true)
    (hplain : ∀ l ∈ d.toDictionary.candidates order o text, l.Plain) :
    d.toDictionary.Recordable order o text := by
  obtain ⟨sentence, hsentence, hparse⟩ := parse_of_contains hknown o
  refine ⟨⟨_, hparse, Candidates.staysExhausted_ofList _⟩, fun l hl => ?_⟩
  refine RecordedLinkage.recordable ?_ (hplain l hl)
  have hparsed : d.toDictionary.parse text o = .ok _ := hparse
  rw [Dictionary.candidates_of_parse hparsed, Candidates.toList_ofList] at hl
  exact consistent_ofCorpus hcorpus sentence hsentence l
    (RecordedCandidates.mem_recorded_of_mem_answers (CandidateOrder.mem_of_mem_arrange hl))

/-- A file recorded from a dictionary passes on that dictionary: no comparison fails, and there is
one for each section that was written. -/
theorem recording_passes {corpus : Corpus} {d : RecordedDictionary}
    (hcorpus : ofCorpus corpus = .ok d) (order : CandidateOrder) (stop : Bool) (path : String)
    (o : Options) {texts : List String} (hne : texts ≠ [])
    (hknown : ∀ text ∈ texts, d.contains text = true) (htexts : ∀ text ∈ texts, OneLine text)
    (hplain : ∀ text ∈ texts, ∀ l ∈ d.toDictionary.candidates order o text, l.Plain) :
    let n := (texts.map fun text => comparisons (d.toDictionary.candidates order o text)).sum
    (runBytes d.toDictionary order stop path o (recording d.toDictionary order o texts)).result =
      .ok ⟨path, texts.length, n, n, [], false⟩ :=
  runBytes_recording hne htexts
    (fun text htext => recordable_of_contains hcorpus (hknown text htext) (hplain text htext))
    stop path

def barking : Corpus where
  lang := "en"
  spellGuess := true
  sentences := [
    ⟨"dogs bark", [
      ⟨["dogs[~]", "bark"], some [⟨0, 4⟩, ⟨5, 9⟩], [(0, 1, "S")], "(S dogs bark)\n", .zero, true⟩,
      ⟨[], some [], [], "(S)", .zero, false⟩]⟩,
    ⟨"bark", []⟩]

theorem recording_passes_barking : ∃ d, ofCorpus barking = .ok d
    ∧ (runBytes d.toDictionary .engine true "t" .standard
        (recording d.toDictionary .engine .standard ["dogs bark", "bark"])).result =
      .ok ⟨"t", 2, 7, 7, [], false⟩ := by
  have hcorpus : ofCorpus barking = .ok _ := rfl
  exact ⟨_, hcorpus, recording_passes hcorpus .engine true "t" .standard (by decide)
    (by decide +kernel) (by decide +kernel) (by decide +kernel)⟩

end RecordedDictionary

end LinkageCheck
