import LinkageCheck.Proofs.Run.Grammar

/-! A run accepts the files of the grammar, and blames the first line behind which no file of the
grammar can go on. -/

namespace LinkageCheck

variable {o : Options} {ls : List Line}

/-! ### Lawful lines are those that the outline takes -/

theorem Solid.append_left {ls later : List Line} (h : Solid (ls ++ later)) : Solid ls := by
  intro before l after hls hsection htext
  have hlonger : ls ++ later = before ++ l :: (after ++ later) := by
    rw [hls, List.append_assoc, List.cons_append]
  exact (List.append_eq_nil_iff.mp (h before l (after ++ later) hlonger hsection htext)).1

theorem Solid.append_right {before ls : List Line} (h : Solid (before ++ ls)) : Solid ls := by
  intro first l after hls
  exact h (before ++ first) l after (by rw [hls, List.append_assoc])

theorem Solid.entryOf {ls : List Line} (h : Solid ls) : Solid (entryOf ls) := by
  rw [← entryOf_append ls] at h
  exact h.append_left

theorem Lawful.section_ne (h : Lawful o ls) {l : Line} (hl : l ∈ entryOf ls) (kind : SectionKind) :
    l.opcode.section? ≠ some kind := by
  intro hsection
  obtain ⟨before, after, hentry⟩ := List.append_of_mem hl
  have hls : ls = before ++ l :: (after ++ ls.dropWhile fun l => !l.opcode.isHead) := by
    rw [← List.cons_append, ← List.append_assoc, ← hentry, entryOf_append]
  have hrecord := Opcode.isRecord_of_section hsection
  obtain ⟨first, hfirst, hsentence⟩ := h.opened before l _ hls hrecord.1 hrecord.2
  have hmem : first ∈ entryOf ls := by
    rw [hentry]
    exact List.mem_append_left _ hfirst
  have hhead := not_isHead_of_mem hmem
  rw [hsentence] at hhead
  cases hhead

theorem Lawful.admits (h : Lawful o ls) : (Outline.initial o).Admits o ls where
  directives := h.directives
  opened := h.opened.imp fun before l after hl hrecord hne => .inr (hl hrecord hne)
  entry := by
    intro kind
    exact SectionKind.reads_none.mpr fun l hl => h.section_ne hl kind
  blocks := h.blocks.imp fun before l after hl hhead kind =>
    SectionKind.reads_of_oneBlock (hl hhead kind)

theorem lawful_of_admits (hsolid : Solid ls) (h : (Outline.initial o).Admits o ls) :
    Lawful o ls where
  directives := h.directives
  opened := by
    refine h.opened.imp fun before l after hl hrecord hne => ?_
    rcases hl hrecord hne with hstarted | hfirst
    · cases hstarted
    · exact hfirst
  blocks := by
    intro before l after hls hhead kind
    have hafter : Solid after := by
      rw [hls, List.append_cons] at hsolid
      exact hsolid.append_right
    exact SectionKind.oneBlock_of_reads hafter.entryOf (h.blocks before l after hls hhead kind)

theorem lone_initial (o : Options) : (Outline.initial o).Lone := by
  intro kind other h
  cases h

/-! ### Files that go on -/

theorem section?_of_mem_ending {kind : SectionKind} {l : Line} (h : l ∈ kind.ending) :
    l.opcode.section? = some kind := by
  rw [(SectionKind.mem_ending h).1, SectionKind.section?_lineOpcode]

theorem not_isHead_of_mem_ending {kind : SectionKind} {l : Line} (h : l ∈ kind.ending) :
    l.opcode.isHead = false := by
  rw [(SectionKind.mem_ending h).1]
  cases kind <;> rfl

theorem entryOf_ending (kind : SectionKind) : entryOf kind.ending = kind.ending := by
  refine List.takeWhile_eq_self_iff.mpr fun l hl => ?_
  rw [not_isHead_of_mem_ending hl]
  rfl

theorem Outline.exists_admits {s : Outline} (hs : s.Sound) (hlone : s.Lone) :
    ∃ more, s.Admits o more ∧ ∀ l ∈ more, l.text ≠ "" := by
  by_cases hnone : ∀ kind, (s.collected kind).any (· != "") = false
  · exact ⟨[], admits_nil.mpr (pending_eq_nil.mpr hnone), fun l hl => absurd hl List.not_mem_nil⟩
  · -- only one section can be pending, and two lines of its own end it
    obtain ⟨kind, hpending⟩ := not_forall.mp hnone
    rw [Bool.not_eq_false] at hpending
    have hopen : ∃ earlier, s.collected kind = some earlier := by
      rcases hcollected : s.collected kind with _ | earlier
      · rw [hcollected] at hpending
        cases hpending
      · exact ⟨earlier, rfl⟩
    obtain ⟨earlier, hopen⟩ := hopen
    have hstarted : s.started = true := hs kind (ne_of_eq_of_ne hopen (Option.some_ne_none _))
    refine ⟨kind.ending, ⟨?_, ?_, fun other => ?_, ?_⟩, fun l hl => (SectionKind.mem_ending hl).2⟩
    · refine eachLine_of_mem fun l hl before after hdirective => ?_
      have hsection := section?_of_mem_ending hl
      rw [hdirective] at hsection
      cases hsection
    · exact eachLine_of_mem fun l hl before after hrecord hne => .inl hstarted
    · rw [entryOf_ending]
      by_cases hother : other = kind
      · rw [hother, hopen]
        exact kind.reads_ending earlier
      · refine SectionKind.reads_of_others ?_ fun l hl => ?_
        · by_contra hboth
          exact hother (hlone other kind (Bool.not_eq_false _ ▸ hboth) hpending)
        · rw [section?_of_mem_ending hl]
          exact fun heq => hother (Option.some.inj heq).symm
    · refine eachLine_of_mem fun l hl before after hhead => ?_
      rw [not_isHead_of_mem_ending hl] at hhead
      cases hhead

theorem map_ok_eq_append {items more : List (Except ScanError Line)} {ls taken : List Line}
    (hitems : items = taken.map .ok) (h : items ++ more = ls.map .ok) :
    ∃ later, ls = taken ++ later := by
  obtain ⟨first, later, rfl, hfirst, -⟩ := List.map_eq_append_iff.mp h.symm
  refine ⟨later, ?_⟩
  have hinj : ∀ a b : Line, (.ok a : Except ScanError Line) = .ok b → a = b := by
    intro a b hab
    exact Except.ok.inj hab
  rw [(List.map_inj_right hinj).mp (hfirst.trans hitems)]

theorem violated_of_error {items : List (Except ScanError Line)} {e : ScanError}
    (h : .error e ∈ items) : Violated o items := by
  intro more ls hls
  have hmem : (.error e : Except ScanError Line) ∈ ls.map .ok := by
    rw [← hls]
    exact List.mem_append_left _ h
  obtain ⟨l, -, hl⟩ := List.mem_map.mp hmem
  cases hl

theorem violated_of_through (h : (Outline.initial o).through o ls = none) :
    Violated o (ls.map .ok) := by
  intro more longer hlonger hlawful
  obtain ⟨later, rfl⟩ := map_ok_eq_append rfl hlonger
  obtain ⟨out, hout, -⟩ := (Outline.admits_iff (sound_initial o)).mp hlawful.admits
  rw [Outline.through_append, h] at hout
  cases hout

theorem not_violated {out : Outline} (h : (Outline.initial o).through o ls = some out)
    (htext : ∀ l ∈ ls, l.opcode.section? ≠ none → l.text ≠ "") : ¬ Violated o (ls.map .ok) := by
  have hsound := Outline.sound_through (sound_initial o) h
  -- the lines go on with what ends the section pending, and that file is lawful
  obtain ⟨more, hmore, hmoreText⟩ :=
    Outline.exists_admits hsound (Outline.lone_through (lone_initial o) h)
  obtain ⟨last, hlast, hpending⟩ := (Outline.admits_iff hsound).mp hmore
  have hadmits : (Outline.initial o).Admits o (ls ++ more) := by
    refine (Outline.admits_iff (sound_initial o)).mpr ⟨last, ?_, hpending⟩
    rw [Outline.through_append, h]
    exact hlast
  have hsolid : Solid (ls ++ more) := by
    refine eachLine_of_mem fun l hl before after hsection hempty => ?_
    rcases List.mem_append.mp hl with hl | hl
    · exact absurd hempty (htext l hl hsection)
    · exact absurd hempty (hmoreText l hl)
  intro hviolated
  exact hviolated (more.map .ok) (ls ++ more) (List.map_append).symm
    (lawful_of_admits hsolid hadmits)

/-! ### The end of a file -/

theorem compared_iff {out : Outline} (h : (Outline.initial o).through o ls = some out) :
    Compared ls ↔ ∃ opcode, out.lastRecord = some opcode ∧ opcode.section?.isSome := by
  rw [Outline.lastRecord_through h, Compared]
  generalize List.getLast? _ = last
  rcases last with _ | l
  · exact ⟨fun ⟨_, hl, _⟩ => (by cases hl), fun ⟨_, hl, _⟩ => (by cases hl)⟩
  · refine ⟨?_, ?_⟩
    · rintro ⟨_, ⟨⟩, hsection⟩
      exact ⟨_, rfl, hsection⟩
    · rintro ⟨_, ⟨⟩, hsection⟩
      exact ⟨l, rfl, hsection⟩

theorem solid_of_scan {content : List UInt8} (h : scan content = ls.map .ok) : Solid ls := by
  intro before l after hls hsection htext
  rw [hls, List.map_append, List.map_cons] at h
  exact List.map_eq_nil_iff.mp (scan_solid h hsection htext)

theorem not_violated_take {content : List UInt8} {taken : List Line} {out : Outline}
    (hthrough : (Outline.initial o).through o taken = some out)
    {rest : List (Except ScanError Line)} (hitems : scan content = taken.map .ok ++ rest) {n : Nat}
    (hn : n ≤ taken.length) (hlast : n < (scan content).length) :
    ¬ Violated o ((scan content).take n) := by
  have hlines : (scan content).take n = (taken.take n).map .ok := by
    rw [hitems, List.take_append_of_le_length (by rwa [List.length_map]), List.map_take]
  have hfirst : ∃ s, (Outline.initial o).through o (taken.take n) = some s := by
    rw [← List.take_append_drop n taken, Outline.through_append] at hthrough
    obtain ⟨s, hs, -⟩ := Option.bind_eq_some_iff.mp hthrough
    exact ⟨s, hs⟩
  obtain ⟨s, hs⟩ := hfirst
  rw [hlines]
  refine not_violated hs fun l hl hsection htext => ?_
  obtain ⟨before, after, htake⟩ := List.append_of_mem hl
  have hscan : scan content =
      before.map .ok ++ .ok l :: (after.map .ok ++ (scan content).drop n) := by
    conv_lhs => rw [← List.take_append_drop n (scan content), hlines, htake]
    rw [List.map_append, List.map_cons, List.append_assoc, List.cons_append]
  have hend := (List.append_eq_nil_iff.mp (scan_solid hscan hsection htext)).2
  exact absurd (List.drop_eq_nil_iff.mp hend) (Nat.not_le_of_lt hlast)

theorem violated_take {content : List UInt8} {taken : List Line} {out : Outline}
    (hthrough : (Outline.initial o).through o taken = some out) {item : Except ScanError Line}
    {later : List (Except ScanError Line)} (hitems : scan content = taken.map .ok ++ item :: later)
    (hstop : out.Stops o item) : Violated o ((scan content).take (taken.length + 1)) := by
  have hlines : (scan content).take (taken.length + 1) = taken.map .ok ++ [item] := by
    rw [hitems, List.append_cons, List.take_append_of_le_length, List.take_of_length_le]
    · simp
    · simp
  rw [hlines]
  rcases item with e | l
  · exact violated_of_error (List.mem_append_right _ List.mem_cons_self)
  · obtain ⟨f, hf⟩ := hstop l rfl
    have hnone : (Outline.initial o).through o (taken ++ [l]) = none := by
      rw [Outline.through_append, hthrough, Option.bind_some, Outline.through, hf]
    have := violated_of_through hnone
    rwa [List.map_append] at this

theorem lastLine_scan {content : List UInt8} {out : Outline}
    (hthrough : (Outline.initial o).through o ls = some out) (hscan : scan content = ls.map .ok) :
    out.lastLine = (scan content).length := by
  rw [Outline.lastLine_through hthrough, hscan, List.length_map]
  rcases hlast : ls.getLast? with _ | l
  · rw [List.getLast?_eq_none_iff.mp hlast]
    rfl
  · have hplace : (scan content)[ls.length - 1]? = some (.ok l) := by
      rw [hscan, List.getElem?_map, ← List.getLast?_eq_getElem?, hlast]
      rfl
    have hne : ls ≠ [] := by
      rintro rfl
      cases hlast
    have hnumber : l.number = ls.length - 1 + 1 := itemNumber_scan hplace
    rw [Nat.sub_add_cancel (List.length_pos_iff.mpr hne)] at hnumber
    exact hnumber

theorem Outline.lines_eq_ok_iff (path : String) (content : List UInt8) :
    (∃ n, (initial o).lines path o (scan content) = .ok n) ↔
      ∃ ls, scan content = ls.map .ok ∧ Lawful o ls ∧ Compared ls := by
  refine ⟨fun ⟨n, hn⟩ => ?_, fun ⟨ls, hscan, hlawful, hcompared⟩ => ?_⟩
  · obtain ⟨rest, out, hitems, hthrough, hstop⟩ := reached_spec o (initial o) (scan content)
    generalize (initial o).reached o (scan content) = taken at *
    rw [hitems, lines_append path rest hthrough] at hn
    rcases rest with _ | ⟨item, later⟩
    · rw [List.append_nil] at hitems
      have hfinish : out.finish = .ok () := by
        rw [lines] at hn
        rcases hout : out.finish with f | ⟨⟩
        · rw [hout] at hn
          cases hn
        · rfl
      obtain ⟨hpending, hrecord⟩ := finish_eq_ok.mp hfinish
      have hadmits := (admits_iff (sound_initial o)).mpr ⟨out, hthrough, hpending⟩
      exact ⟨taken, hitems, lawful_of_admits (solid_of_scan hitems) hadmits,
        (compared_iff hthrough).mpr hrecord⟩
    · obtain ⟨f, hf⟩ := (hstop item later rfl).lines_eq path later
      rw [hf] at hn
      cases hn
  · obtain ⟨out, hthrough, hpending⟩ := (admits_iff (sound_initial o)).mp hlawful.admits
    have hfinish := finish_eq_ok.mpr ⟨hpending, (compared_iff hthrough).mp hcompared⟩
    have hlines := lines_append path [] hthrough
    rw [List.append_nil, ← hscan, lines, hfinish] at hlines
    exact ⟨out.sentences, hlines⟩

theorem Outline.lines_eq_error {path : String} {content : List UInt8} {e : RunError}
    (h : (initial o).lines path o (scan content) = .error e) :
    e.path = path ∧
      IsLeast {n | Violated o ((scan content).take n) ∨ n = (scan content).length} e.line := by
  obtain ⟨rest, out, hitems, hthrough, hstop⟩ := reached_spec o (initial o) (scan content)
  generalize (initial o).reached o (scan content) = taken at *
  have hgood : ∀ n ≤ taken.length, n < (scan content).length →
      ¬ Violated o ((scan content).take n) := by
    intro n
    exact not_violated_take hthrough hitems
  rcases rest with _ | ⟨item, later⟩
  -- all lines are taken, so what is wrong shows only at the end
  · have hlines := lines_append path [] hthrough
    rw [← hitems, h, lines] at hlines
    rw [List.append_nil] at hitems
    have hlast := lastLine_scan hthrough hitems
    have he : e.path = path ∧ e.line = out.lastLine := by
      rcases hout : out.finish with f | ⟨⟩
      · rw [hout] at hlines
        cases hlines
        exact ⟨rfl, rfl⟩
      · rw [hout] at hlines
        cases hlines
    refine ⟨he.1, .inr (he.2.trans hlast), ?_⟩
    rintro n (hviolated | rfl)
    · by_contra hlt
      rw [he.2, hlast, Nat.not_le] at hlt
      have hn : n ≤ taken.length := by
        rw [hitems, List.length_map] at hlt
        exact hlt.le
      exact hgood n hn hlt hviolated
    · rw [he.2, hlast]
  -- the run ends at the first line that is not taken
  · obtain ⟨f, hf⟩ := (hstop item later rfl).lines_eq path later
    have hlines := lines_append path (item :: later) hthrough
    rw [← hitems, h, hf] at hlines
    have hplace : (scan content)[taken.length]? = some item := by
      rw [hitems, List.getElem?_append_right (List.length_map _).le, List.length_map, Nat.sub_self]
      rfl
    have hlength : taken.length < (scan content).length := (List.getElem?_eq_some_iff.mp hplace).1
    obtain rfl := Except.error.inj hlines
    rw [itemNumber_scan hplace]
    refine ⟨rfl, .inl (violated_take hthrough hitems (hstop item later rfl)), ?_⟩
    rintro n (hviolated | rfl)
    · by_contra hlt
      have hn : n ≤ taken.length := Nat.lt_succ_iff.mp (Nat.not_le.mp hlt)
      exact hgood n hn (hn.trans_lt hlength) hviolated
    · exact hlength

variable {α : Type} [Linkage α]

/-- An answered run accepts just the files of the grammar. On every other file it blames the first
line behind which the file cannot go on, or else the last line. -/
theorem runBytes_accepts {d : Dictionary α} (order : CandidateOrder) (path : String) (o : Options)
    (content : List UInt8)
    (h : ∀ q ∈ runRequests d order false path o content, ∃ c, d.parse q.1 q.2 = .ok c) :
    let run := runBytes d order false path o content
    ((∃ report, run.result = .ok report) ↔
        ∃ ls, scan content = ls.map .ok ∧ Lawful o ls ∧ Compared ls)
      ∧ ∀ e, run.result = .error e → e.path = path
        ∧ IsLeast {n | Violated o ((scan content).take n) ∨ n = (scan content).length} e.line := by
  intro run
  obtain ⟨-, hresult, -⟩ := runBytes_outline order path o content h
  refine ⟨?_, fun e he => ?_⟩
  · rw [← Outline.lines_eq_ok_iff path content, ← hresult]
    refine ⟨fun ⟨report, hreport⟩ => ⟨report.sentences, ?_⟩, fun ⟨n, hn⟩ => ?_⟩
    · rw [show (runBytes d order false path o content).result = .ok report from hreport]
      rfl
    · rcases hrun : run.result with e | report
      · rw [show (runBytes d order false path o content).result = .error e from hrun] at hn
        cases hn
      · exact ⟨report, rfl⟩
  · rw [show (runBytes d order false path o content).result = .error e from he] at hresult
    exact Outline.lines_eq_error hresult.symm

def brokenFile : List UInt8 := Text.Utf8.encode "Ihi\nOx\nN\nOx\n".toList

theorem runBytes_accepts_trees :
    (∃ ls, scan treeFile = ls.map .ok ∧ Lawful .standard ls ∧ Compared ls)
      ∧ IsLeast {n | Violated .standard ((scan brokenFile).take n) ∨ n = (scan brokenFile).length}
        3 := by
  have answered : ∀ q : Request, ∃ c, (ofTrees []).parse q.1 q.2 = .ok c := by
    intro q
    exact ⟨_, rfl⟩
  have haccepted : ∃ report, (runBytes (ofTrees []) .engine false "t" .standard treeFile).result =
      .ok report := by
    refine ⟨⟨"t", 2, 2, 0, [⟨"t", 3, some "hi", 1, .noLinkage .constituents⟩,
      ⟨"t", 9, some "ho", 1, .noLinkage .constituents⟩], false⟩, ?_⟩
    decide +kernel
  have hbroken : (runBytes (ofTrees []) .engine false "t" .standard brokenFile).result =
      .error ⟨"t", 3, .validation (.unfinished .diagram)⟩ := by
    decide +kernel
  exact ⟨(runBytes_accepts .engine "t" .standard treeFile fun q _ => answered q).1.mp haccepted,
    ((runBytes_accepts .engine "t" .standard brokenFile fun q _ => answered q).2 _ hbroken).2⟩

end LinkageCheck
