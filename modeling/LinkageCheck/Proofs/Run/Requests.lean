import LinkageCheck.Corpus.Recorded
import LinkageCheck.Proofs.Run.Settling

/-! What a run asks of its dictionary. As long as every request is answered, the answers decide
nothing but the comparisons: requests, options and the way a run ends are those of its outline. -/

namespace LinkageCheck

abbrev Request := String × Options

variable {α β : Type} [Linkage α] [Linkage β]

/-- The request that a run in this state makes for a line, once the line is found in its place. -/
def RunState.request? (s : RunState α) (l : Line) : Option Request :=
  match s.validator.check s.sections l.opcode with
  | .ok _ => if l.opcode = .sentence then some (l.sentenceText, s.options) else none
  | .error _ => none

namespace RunSetup

def requests (r : RunSetup α) (s : RunState α) : List (Except ScanError Line) → List Request
  | .ok l :: rest =>
    (s.request? l).toList ++
      match r.line s l with
      | .ok (.goOn, s) => r.requests s rest
      | _ => []
  | _ => []

def Answered (r : RunSetup α) (s : RunState α) (items : List (Except ScanError Line)) : Prop :=
  ∀ q ∈ r.requests s items, ∃ candidates, r.dictionary.parse q.1 q.2 = .ok candidates

def withDictionary (r : RunSetup α) (d : Dictionary α) : RunSetup α := { r with dictionary := d }

end RunSetup

def runRequests (dictionary : Dictionary α) (order : CandidateOrder) (stopOnFailure : Bool)
    (path : String) (o : Options) (content : List UInt8) : List Request :=
  RunSetup.requests ⟨dictionary, order, stopOnFailure, path, o⟩ (.initial path o) (scan content)

/-- Each sentence among the lines, with the options that the directives before it leave. -/
def sentenceRequests (baseline : Options) : Options → List Line → List Request
  | _, [] => []
  | o, l :: ls =>
    let later := sentenceRequests baseline (l.optionsAfter baseline o) ls
    if l.opcode = .sentence then (l.sentenceText, o) :: later else later

/-! ### Requests are all that a run depends on -/

namespace RunSetup

variable {r : RunSetup α} {s : RunState α} {l : Line} {items : List (Except ScanError Line)}

theorem sentence_withDictionary {d : Dictionary α}
    (h : d.parse l.sentenceText s.options = r.dictionary.parse l.sentenceText s.options) :
    (r.withDictionary d).sentence s l = r.sentence s l := by
  have hstart : s.cursor.start d l.sentenceText s.options r.order =
      s.cursor.start r.dictionary l.sentenceText s.options r.order := by
    rw [Cursor.start, Cursor.start, h]
  unfold Line.sentenceText at hstart
  unfold sentence
  simp only [withDictionary, hstart]
  rfl

theorem line_withDictionary {d : Dictionary α}
    (h : ∀ q ∈ s.request? l, d.parse q.1 q.2 = r.dictionary.parse q.1 q.2) :
    (r.withDictionary d).line s l = r.line s l := by
  rw [RunState.request?] at h
  rw [line, line]
  rcases hcheck : s.validator.check s.sections l.opcode with e | v
  · rfl
  · rw [hcheck] at h
    cases hopcode : l.opcode with
    | sentence =>
      have hparse : d.parse l.sentenceText s.options =
          r.dictionary.parse l.sentenceText s.options := by
        apply h (l.sentenceText, s.options)
        simp only [hopcode, if_true]
        rfl
      exact sentence_withDictionary (s := { s with validator := v, lastLine := l.number }) hparse
    | _ => rfl

theorem lines_withDictionary {d : Dictionary α}
    (h : ∀ q ∈ r.requests s items, d.parse q.1 q.2 = r.dictionary.parse q.1 q.2) :
    (r.withDictionary d).lines s items = r.lines s items := by
  induction items generalizing s with
  | nil => rfl
  | cons item rest ih =>
    rcases item with e | l
    · rfl
    · rw [requests] at h
      have hline := line_withDictionary fun q hq =>
        h q (List.mem_append_left _ (Option.mem_toList.mpr hq))
      rw [lines, lines, hline]
      rcases hnext : r.line s l with e | ⟨_ | _, s'⟩
      · rfl
      · apply ih
        intro q hq
        apply h
        rw [hnext]
        exact List.mem_append_right _ hq
      · rfl

/-! ### Answered runs -/

theorem settle_total (hoff : r.stopOnFailure = false) (number : Nat) {event : Event}
    (h : ∀ text, event = .sentence text →
      ∃ candidates, r.dictionary.parse text s.options = .ok candidates) :
    ∃ s', r.settle s number event = .ok (.goOn, s') := by
  have hsettle : ∃ flow s', r.settle s number event = .ok (flow, s') := by
    cases event with
    | quiet => exact ⟨_, s, rfl⟩
    | sentence text =>
      obtain ⟨candidates, hparse⟩ := h text rfl
      rw [settle]
      simp only [Cursor.start, hparse]
      exact ⟨_, _, rfl⟩
    | next =>
      rw [settle]
      split
      · exact ⟨_, s, rfl⟩
      · simp only
        split
        · exact ⟨_, _, rfl⟩
        · exact ⟨_, _, rfl⟩
    | closed kind closing =>
      rw [settle]
      split
      · exact ⟨_, s, rfl⟩
      · exact ⟨_, _, rfl⟩
  obtain ⟨flow, s', hsettle⟩ := hsettle
  obtain rfl := settle_goOn hoff hsettle
  exact ⟨s', hsettle⟩

omit [Linkage α] in
theorem request?_of_fault {baseline : Options} {f : RunFault}
    (h : s.outline.step baseline l = .error f) : s.request? l = none := by
  rw [Outline.step] at h
  rw [RunState.request?, RunState.check_outline]
  rcases hplace : s.outline.unfinished? l.opcode with _ | kind
  · have hopcode : l.opcode ≠ .sentence := by
      intro hopcode
      rw [hplace, Outline.act] at h
      simp only [hopcode] at h
      cases h
    exact if_neg hopcode
  · rfl

omit [Linkage α] in
theorem request?_of_step {baseline : Options} {out : Outline} {event : Event}
    (h : s.outline.step baseline l = .ok (out, event)) :
    s.request? l = if l.opcode = .sentence then some (l.sentenceText, s.options) else none := by
  rw [RunState.request?, RunState.check_outline, (Outline.step_eq_ok_iff.mp h).1]

omit [Linkage α] in
theorem finish_outline (r : RunSetup α) (s : RunState α) :
    (r.finish s).result.map (·.sentences) = s.outline.lines r.path r.baseline []
      ∧ (r.finish s).options = s.options := by
  have hpending : s.outline.pending = s.sections.pending := rfl
  rw [finish, Validator.finish, Outline.lines, Outline.finish, hpending]
  rcases s.sections.pending.head? with _ | kind
  · simp only [RunState.outline]
    rcases s.validator.lastRecord with _ | opcode
    · exact ⟨rfl, rfl⟩
    · cases opcode <;> exact ⟨rfl, rfl⟩
  · exact ⟨rfl, rfl⟩

theorem lines_outline (hoff : r.stopOnFailure = false) (hs : s.sections.WellPlaced)
    (hanswered : r.Answered s items) :
    r.requests s items =
        sentenceRequests r.baseline s.options (s.outline.reached r.baseline items)
      ∧ (r.lines s items).result.map (·.sentences) = s.outline.lines r.path r.baseline items
      ∧ (r.lines s items).options =
        (s.outline.reached r.baseline items).foldl (fun o l => l.optionsAfter r.baseline o)
          s.options := by
  induction items generalizing s with
  | nil =>
    obtain ⟨hresult, hoptions⟩ := r.finish_outline s
    exact ⟨rfl, hresult, hoptions⟩
  | cons item rest ih =>
    rcases item with e | l
    · exact ⟨rfl, rfl, rfl⟩
    · have hline := r.line_eq l hs
      rw [requests, lines, Outline.reached, Outline.lines]
      rw [Answered, requests] at hanswered
      rcases hstep : s.outline.step r.baseline l with f | ⟨out, event⟩
      · rw [hstep] at hline
        rw [hline, request?_of_fault hstep]
        exact ⟨rfl, rfl, rfl⟩
      · rw [hstep] at hline
        have hact := (Outline.step_eq_ok_iff.mp hstep).2
        -- the step is the one of the outline, and it asks for nothing but its sentence
        have hasked : ∀ text, event = .sentence text →
            ∃ candidates, r.dictionary.parse text (s.follow out).options = .ok candidates := by
          rintro text rfl
          cases hact with
          | sentence hopcode =>
            apply hanswered (l.sentenceText, s.options)
            rw [request?_of_step hstep, if_pos hopcode]
            exact List.mem_cons_self
        obtain ⟨s', hsettle⟩ := settle_total hoff l.number hasked
        obtain ⟨houtline, hplaced⟩ := settle_outline hact hsettle
        have hnext : r.line s l = .ok (.goOn, s') := hline.trans hsettle
        have hoptions : s'.options = l.optionsAfter r.baseline s.options := by
          have : s'.options = out.options := congrArg Outline.options houtline
          rw [this, hact.options_eq]
          rfl
        rw [hnext] at hanswered ⊢
        obtain ⟨hrequests, hresult, hend⟩ := ih hplaced fun q hq =>
          hanswered q (List.mem_append_right _ hq)
        rw [houtline, hoptions] at hrequests hend
        rw [houtline] at hresult
        refine ⟨?_, hresult, hend⟩
        rw [request?_of_step hstep, sentenceRequests]
        simp only [hrequests]
        split
        · rfl
        · rfl

end RunSetup

omit [Linkage α] in
theorem RunState.outline_initial (path : String) (o : Options) :
    (RunState.initial path o : RunState α).outline = .initial o := by
  have hclosed : Sections.closed.collected = fun _ => none := by
    funext kind
    exact Sections.collected_closed kind
  rw [outline, Outline.initial, ← hclosed]
  rfl

def optionsBehind (baseline : Options) (ls : List Line) : Options :=
  ls.foldl (fun o l => l.optionsAfter baseline o) baseline

def reachedLines (o : Options) (content : List UInt8) : List Line :=
  (Outline.initial o).reached o (scan content)

theorem runBytes_outline {d : Dictionary α} (order : CandidateOrder) (path : String) (o : Options)
    (content : List UInt8)
    (h : ∀ q ∈ runRequests d order false path o content, ∃ c, d.parse q.1 q.2 = .ok c) :
    runRequests d order false path o content = sentenceRequests o o (reachedLines o content)
      ∧ (runBytes d order false path o content).result.map (·.sentences) =
        (Outline.initial o).lines path o (scan content)
      ∧ (runBytes d order false path o content).options =
        optionsBehind o (reachedLines o content) := by
  have hrun := RunSetup.lines_outline (r := ⟨d, order, false, path, o⟩) (s := .initial path o) rfl
    Sections.wellPlaced_closed h
  rw [RunState.outline_initial] at hrun
  exact hrun

theorem reachedLines_spec (path : String) (o : Options) (content : List UInt8) :
    ∃ rest, scan content = (reachedLines o content).map .ok ++ rest
      ∧ (rest ≠ [] → ∃ f, (Outline.initial o).lines path o (scan content) =
        .error ⟨path, (reachedLines o content).length + 1, f⟩) := by
  obtain ⟨rest, out, hitems, hthrough, hstop⟩ := Outline.reached_spec o (.initial o) (scan content)
  refine ⟨rest, hitems, fun hrest => ?_⟩
  obtain ⟨item, later, rfl⟩ := List.exists_cons_of_ne_nil hrest
  obtain ⟨f, hf⟩ := (hstop item later rfl).lines_eq path later
  have hplace : (scan content)[(reachedLines o content).length]? = some item := by
    refine (congrArg (·[(reachedLines o content).length]?) hitems).trans ?_
    rw [← reachedLines, List.getElem?_append_right (Nat.le_of_eq (List.length_map _)),
      List.length_map, Nat.sub_self]
    rfl
  have hlines := Outline.lines_append path (item :: later) hthrough
  rw [← itemNumber_scan hplace]
  exact ⟨f, (congrArg _ hitems).trans (hlines.trans hf)⟩

theorem result_of_map_error {path : String} {line : Nat} {f : RunFault}
    {result : Except RunError Report}
    (h : result.map (·.sentences) = .error ⟨path, line, f⟩) : result = .error ⟨path, line, f⟩ := by
  rcases result with e | report
  · exact congrArg _ (Except.error.inj h)
  · cases h

/-- Two dictionaries that answer all that they are asked are asked the same, and the two runs leave
the same options and end in the same way, with the same number of sentences or the same error. What
a run asks is all that it takes from its dictionary: any other one that gives the same answers gives
the same run. -/
theorem runBytes_answered {d : Dictionary α} {d' : Dictionary β} (order order' : CandidateOrder)
    (path : String) (o : Options) (content : List UInt8)
    (h : ∀ q ∈ runRequests d order false path o content, ∃ c, d.parse q.1 q.2 = .ok c)
    (h' : ∀ q ∈ runRequests d' order' false path o content, ∃ c, d'.parse q.1 q.2 = .ok c) :
    let run := runBytes d order false path o content
    let run' := runBytes d' order' false path o content
    ∃ reached rest, scan content = reached.map .ok ++ rest
      ∧ (rest ≠ [] → ∃ f, run.result = .error ⟨path, reached.length + 1, f⟩)
      ∧ runRequests d order false path o content = sentenceRequests o o reached
      ∧ runRequests d' order' false path o content = sentenceRequests o o reached
      ∧ run.options = optionsBehind o reached
      ∧ run'.options = optionsBehind o reached
      ∧ run.result.map (·.sentences) = run'.result.map (·.sentences)
      ∧ ∀ other : Dictionary α, (∀ q ∈ runRequests d order false path o content,
          other.parse q.1 q.2 = d.parse q.1 q.2) →
        runBytes other order false path o content = run := by
  intro run run'
  obtain ⟨hrequests, hresult, hoptions⟩ := runBytes_outline order path o content h
  obtain ⟨hrequests', hresult', hoptions'⟩ := runBytes_outline order' path o content h'
  obtain ⟨rest, hitems, hend⟩ := reachedLines_spec path o content
  refine ⟨reachedLines o content, rest, hitems, fun hrest => ?_, hrequests, hrequests', hoptions,
    hoptions', hresult.trans hresult'.symm, fun other hother =>
      RunSetup.lines_withDictionary (r := ⟨d, order, false, path, o⟩) hother⟩
  obtain ⟨f, hf⟩ := hend hrest
  exact ⟨f, result_of_map_error (hresult.trans hf)⟩

def ofTrees (trees : List String) : Dictionary RecordedLinkage where
  lang := "en"
  hasSpellGuess := false
  parse _ _ := .ok (.ofList (trees.map fun tree => ⟨[], .ofWords [], tree, .zero, false⟩))

def treeFile : List UInt8 :=
  Text.Utf8.encode "Ihi\nCT\nC\nN\nCT\nC\nIho\nCS\nC\nN\nCT\nC\n".toList

theorem runBytes_answered_trees :
    (runBytes (ofTrees ["S", "T"]) .engine false "t" .standard treeFile).result.map (·.sentences) =
      (runBytes (ofTrees []) .equalCost false "t" .standard treeFile).result.map (·.sentences) := by
  have answered : ∀ trees (q : Request), ∃ c, (ofTrees trees).parse q.1 q.2 = .ok c := by
    intro trees q
    exact ⟨_, rfl⟩
  obtain ⟨reached, rest, -, -, -, -, -, -, hresult, -⟩ :=
    runBytes_answered .engine .equalCost "t" .standard treeFile
      (fun q _ => answered ["S", "T"] q) (fun q _ => answered [] q)
  exact hresult

end LinkageCheck
