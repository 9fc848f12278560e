import LinkageCheck.Proofs.Text.Blank
import LinkageCheck.Proofs.Text.LineDiff
import LinkageCheck.Proofs.Text.Lines
import LinkageCheck.Run.FailureText

/-! The difference shown for a failed comparison can be read back line by line: which side has the
line, its text, and for changed lines the blanks at its end. So both texts are found in it again, up
to blanks at the ends of their lines. -/

namespace LinkageCheck

namespace FailureText

open Text Text.LineDiff

/-! ### What is shown of a change -/

/-- Which side has a line, its text, and the blanks at its end, which changed lines show. -/
structure Shown where
  change : Change
  text : List Char
  blanks : Nat
  deriving DecidableEq

def body (line : List Char) : List Char := dropTail (fun c => c == '\n' || c == '\r') line

def Shown.of : Change × List Char → Shown
  | (.kept, line) => ⟨.kept, trimEnd line, 0⟩
  | (change, line) => ⟨change, trimEnd line, blanksAtEnd (body line)⟩

def Shown.readChanged (change : Change) (cs : List Char) : Shown :=
  let marked := dropTail (· == '·') cs
  ⟨change, marked.drop 1, cs.length - marked.length⟩

/-- Reads a line of the difference; the sign is in its fifth column. -/
def Shown.read (cs : List Char) : Shown :=
  match cs.drop 4 with
  | '-' :: rest => readChanged .removed rest
  | '+' :: rest => readChanged .added rest
  | _ => ⟨.kept, cs.drop 6, 0⟩

/-! ### A line and what it says -/

variable {c : Change × List Char} {line : List Char}

theorem trimEnd_body (line : List Char) : trimEnd (body line) = trimEnd line := by
  obtain ⟨ending, hsplit, hending⟩ :=
    exists_dropTail_append (fun c => c == '\n' || c == '\r') line
  have hblank : ∀ c ∈ ending, isBlank c = true := by
    intro c hc
    have hbreak : c = '\n' ∨ c = '\r' := by simpa using hending c hc
    rcases hbreak with rfl | rfl <;> decide
  conv => rhs; rw [hsplit]
  exact (trimEnd_append_of_blank _ hblank).symm

def indent : List Char := [' ', ' ', ' ', ' ']

def behindSign (text : List Char) (blanks : Nat) : List Char :=
  (if text = [] then [] else ' ' :: text) ++ List.replicate blanks '·'

def signOf : Change → Char
  | .kept => ' '
  | .removed => '-'
  | .added => '+'

theorem isBlank_signOf {change : Change} (hchange : change ≠ .kept) :
    isBlank (signOf change) = false := by
  cases change with
  | kept => exact absurd rfl hchange
  | removed => decide
  | added => decide

theorem toList_changedLine {sign : String} {c : Char} (hsign : sign.toList = [c])
    (hc : isBlank c = false) (line : List Char) : (changedLine sign line).toList =
      indent ++ c :: behindSign (trimEnd line) (blanksAtEnd line) := by
  have hstart : (toString "    " ++ toString sign ++ toString " ").toList = indent ++ [c, ' '] := by
    have hindent : "    ".toList = indent := by decide
    have hblank : " ".toList = [' '] := by decide
    change ("    " ++ sign ++ " ").toList = _
    rw [String.toList_append, String.toList_append, hindent, hsign, hblank, List.append_assoc]
    rfl
  have hmarked : trimEnd (indent ++ [c, ' '] ++ trimEnd line) =
      indent ++ c :: if trimEnd line = [] then [] else ' ' :: trimEnd line := by
    by_cases hempty : trimEnd line = []
    · have hsigned : trimEnd (indent ++ [c]) = indent ++ [c] :=
        trimEnd_of_getLast? (by simp [hc])
      have hblank : ∀ d ∈ [' '], isBlank d = true :=
        List.forall_mem_singleton.mpr (by decide)
      have htrim := trimEnd_append_of_blank (indent ++ [c]) hblank
      rw [hempty, List.append_nil, if_pos rfl, ← hsigned, ← htrim, List.append_assoc]
      rfl
    · have hne : trimEnd (trimEnd line) ≠ [] := by rwa [trimEnd_trimEnd]
      rw [trimEnd_append_of_ne_nil hne, trimEnd_trimEnd, if_neg hempty, List.append_assoc]
      rfl
  rw [changedLine, trimmedEnd, String.toList_append, String.toList_append, String.toList_ofList,
    String.toList_ofList, String.toList_ofList, hstart, hmarked, length_sub_length_trimEnd,
    behindSign, List.append_assoc, List.cons_append]

theorem trimEnd_behindSign {c : Char} (hc : isBlank c = false) (before line : List Char)
    (blanks : Nat) : trimEnd (before ++ c :: behindSign (trimEnd line) blanks) =
      before ++ c :: behindSign (trimEnd line) blanks := by
  -- The last character is a dot, the last of the text, or the sign.
  apply trimEnd_of_getLast?
  intro d hd
  rw [List.getLast?_append_of_ne_nil _ (List.cons_ne_nil _ _), behindSign, ← List.cons_append,
    List.getLast?_append, List.getLast?_replicate] at hd
  by_cases hblanks : blanks = 0
  · rw [if_pos hblanks, Option.none_or] at hd
    by_cases hempty : trimEnd line = []
    · rw [if_pos hempty] at hd
      obtain rfl : c = d := Option.some.inj hd
      exact hc
    · rw [if_neg hempty, List.getLast?_cons_cons, List.getLast?_cons_of_ne_nil hempty] at hd
      exact getLast?_dropTail d hd
  · rw [if_neg hblanks] at hd
    obtain rfl : '·' = d := Option.some.inj hd
    decide

theorem readChanged_behindSign (change : Change) {text : List Char} (blanks : Nat)
    (hdot : text.getLast? ≠ some '·') :
    Shown.readChanged change (behindSign text blanks) = ⟨change, text, blanks⟩ := by
  have hgap : ∀ c ∈ (if text = [] then [] else ' ' :: text).getLast?, (c == '·') = false := by
    intro c hlast
    by_cases hempty : text = []
    · simp [hempty] at hlast
    · rw [if_neg hempty, List.getLast?_cons_of_ne_nil hempty] at hlast
      rw [beq_eq_false_iff_ne]
      rintro rfl
      exact hdot hlast
  have hdots : ∀ c ∈ List.replicate blanks '·', (c == '·') = true := by simp
  have htext : (if text = [] then [] else ' ' :: text).drop 1 = text := by
    by_cases hempty : text = [] <;> simp [hempty]
  simp only [Shown.readChanged, behindSign]
  rw [dropTail_append hgap hdots, htext, List.length_append, Nat.add_sub_cancel_left,
    List.length_replicate]

theorem toList_diffLine_kept (line : List Char) :
    (diffLine (.kept, line)).toList = indent ++ [' ', ' '] ++ body line := by
  have hspaces : "      ".toList = indent ++ [' ', ' '] := by decide
  change ("      " ++ String.ofList (body line)).toList = _
  rw [String.toList_append, hspaces, String.toList_ofList]

theorem toList_diffLine_changed {change : Change} (hchange : change ≠ .kept) (line : List Char) :
    (diffLine (change, line)).toList =
      indent ++ signOf change :: behindSign (trimEnd line) (blanksAtEnd (body line)) := by
  rw [← trimEnd_body]
  cases change with
  | kept => exact absurd rfl hchange
  | removed => exact toList_changedLine (by decide) (by decide) (body line)
  | added => exact toList_changedLine (by decide) (by decide) (body line)

theorem read_changed {change : Change} (hchange : change ≠ .kept) (cs : List Char) :
    Shown.read (indent ++ signOf change :: cs) = Shown.readChanged change cs := by
  cases change with
  | kept => exact absurd rfl hchange
  | removed => rfl
  | added => rfl

theorem read_diffLine (hdot : (trimEnd c.2).getLast? ≠ some '·') :
    Shown.read (trimEnd (diffLine c).toList) = Shown.of c := by
  obtain ⟨change, line⟩ := c
  by_cases hchange : change = .kept
  · subst hchange
    rw [toList_diffLine_kept, Shown.of]
    -- A blank line that is kept is cut down to nothing, which has no sign.
    by_cases hempty : trimEnd line = []
    · have hspaces : trimEnd (indent ++ [' ', ' ']) = [] := by decide
      rw [trimEnd_append_of_eq_nil (by rw [trimEnd_body, hempty]), hspaces, hempty]
      rfl
    · rw [trimEnd_append_of_ne_nil (by rwa [trimEnd_body]), trimEnd_body]
      rfl
  · rw [toList_diffLine_changed hchange, trimEnd_behindSign (isBlank_signOf hchange),
      read_changed hchange, readChanged_behindSign change _ hdot, Shown.of]
    exact hchange

/-! ### Lines of the difference -/

theorem lineFeed_not_mem_body (h : '\n' ∉ line.dropLast) : '\n' ∉ body line := by
  obtain ⟨ending, hsplit, -⟩ := exists_dropTail_append (fun c => c == '\n' || c == '\r') line
  change line = body line ++ ending at hsplit
  intro hmem
  by_cases hending : ending = []
  · have hwhole : line = body line := by rwa [hending, List.append_nil] at hsplit
    have hlast : some '\n' ≠ (body line).getLast? := fun hlast =>
      absurd (getLast?_dropTail _ hlast.symm) (by decide)
    rw [hwhole] at h
    exact h (List.mem_dropLast_of_mem_of_ne_getLast? hmem hlast)
  · rw [hsplit, List.dropLast_append_of_ne_nil hending] at h
    exact h (List.mem_append_left _ hmem)

theorem lineFeed_not_mem_behindSign {text : List Char} (h : '\n' ∉ text) (blanks : Nat) :
    '\n' ∉ behindSign text blanks := by
  rw [behindSign]
  split <;> simp [h]

theorem lineFeed_not_mem_diffLine (h : '\n' ∉ c.2.dropLast) : '\n' ∉ (diffLine c).toList := by
  obtain ⟨change, line⟩ := c
  have hbody : '\n' ∉ body line := lineFeed_not_mem_body h
  by_cases hchange : change = .kept
  · subst hchange
    rw [toList_diffLine_kept]
    simp [indent, hbody]
  · have htext : '\n' ∉ trimEnd line := fun hmem =>
      hbody (mem_of_mem_dropTail (trimEnd_body line ▸ hmem))
    have hbehind := lineFeed_not_mem_behindSign htext (blanksAtEnd (body line))
    have hsign : '\n' ≠ signOf change := by cases change <;> decide
    rw [toList_diffLine_changed hchange]
    simp [indent, hsign, hbehind]

theorem toList_join (ls : List String) :
    (join ls).toList = (ls.map fun l => trimEnd l.toList ++ ['\n']).flatten := by
  simp [join, trimmedEnd, String.toList_join, List.flatMap_def, Function.comp_def]

theorem lines_join {ls : List String} (h : ∀ l ∈ ls, '\n' ∉ l.toList) :
    Text.lines (join ls).toList = ls.map fun l => trimEnd l.toList := by
  have hterminated : ∀ piece ∈ ls.map fun l => trimEnd l.toList ++ ['\n'],
      Terminated (· == '\n') piece := by
    intro piece hpiece
    obtain ⟨l, hl, rfl⟩ := List.mem_map.mp hpiece
    refine ⟨trimEnd l.toList, '\n', rfl, rfl, fun d hd => ?_⟩
    rw [beq_eq_false_iff_ne]
    rintro rfl
    exact h l hl (mem_of_mem_dropTail hd)
  rw [Text.lines, toList_join, cutAfter_flatten hterminated, List.map_map]
  refine List.map_congr_left fun l _ => dropLineEnd_append fun hlast => ?_
  have hblank := getLast?_dropTail _ hlast
  revert hblank
  decide

/-! ### The whole difference -/

/-- The changes lead from one text to the other, line by line. -/
structure IsLineDiff (changes : List (Change × List Char)) (expected actual : List Char) :
    Prop where
  unbroken : ∀ c ∈ changes, c.2 ≠ [] ∧ '\n' ∉ c.2.dropLast
  expected : (oldLines changes).flatten = expected
  actual : (newLines changes).flatten = actual

variable {changes : List (Change × List Char)}

theorem mem_oldLines_or_mem_newLines (hc : c ∈ changes) :
    c.2 ∈ oldLines changes ∨ c.2 ∈ newLines changes := by
  by_cases hadded : c.1 = .added
  · exact .inr (List.mem_map.mpr ⟨c, List.mem_filter.mpr ⟨hc, by simp [hadded]⟩, rfl⟩)
  · exact .inl (List.mem_map.mpr ⟨c, List.mem_filter.mpr ⟨hc, by simp [hadded]⟩, rfl⟩)

theorem isLineDiff_changes (expected actual : List Char) :
    IsLineDiff (LineDiff.changes (splitLines expected) (splitLines actual)) expected actual := by
  obtain ⟨hold, hnew⟩ := lines_changes (splitLines expected) (splitLines actual)
  refine ⟨fun c hc => ?_, by rw [hold, flatten_splitLines], by rw [hnew, flatten_splitLines]⟩
  rcases mem_oldLines_or_mem_newLines hc with hline | hline
  · exact unbroken_of_mem_splitLines _ (hold ▸ hline)
  · exact unbroken_of_mem_splitLines _ (hnew ▸ hline)

theorem lines_join_diffLine (h : ∀ c ∈ changes, '\n' ∉ c.2.dropLast) :
    Text.lines (join (changes.map diffLine)).toList =
      changes.map fun c => trimEnd (diffLine c).toList := by
  rw [lines_join, List.map_map]
  · rfl
  · intro l hl
    obtain ⟨c, hc, rfl⟩ := List.mem_map.mp hl
    exact lineFeed_not_mem_diffLine (h c hc)

@[simp]
theorem change_of (c : Change × List Char) : (Shown.of c).change = c.1 := by
  obtain ⟨_ | _ | _, line⟩ := c <;> rfl

@[simp]
theorem text_of (c : Change × List Char) : (Shown.of c).text = trimEnd c.2 := by
  obtain ⟨_ | _ | _, line⟩ := c <;> rfl

theorem filter_map_of (change : Change) (changes : List (Change × List Char)) :
    ((changes.map Shown.of).filter (·.change ≠ change)).map (·.text) =
      ((changes.filter (·.1 ≠ change)).map (·.2)).map trimEnd := by
  simp [List.filter_map, Function.comp_def]

theorem IsLineDiff.exists_marked {expected actual : List Char}
    (h : IsLineDiff changes expected actual) (hne : expected ≠ actual) :
    ∃ c ∈ changes, c.1 ≠ .kept := by
  by_contra hnone
  have hkept : ∀ c ∈ changes, c.1 = .kept := by simpa using hnone
  have hold : oldLines changes = changes.map (·.2) := by
    rw [oldLines, List.filter_eq_self.mpr fun c hc => by simp [hkept c hc]]
  have hnew : newLines changes = changes.map (·.2) := by
    rw [newLines, List.filter_eq_self.mpr fun c hc => by simp [hkept c hc]]
  exact hne (by rw [← h.expected, ← h.actual, hold, hnew])

theorem read_lines (hunbroken : ∀ c ∈ changes, '\n' ∉ c.2.dropLast)
    (hdots : ∀ line ∈ oldLines changes ++ newLines changes, (trimEnd line).getLast? ≠ some '·') :
    (Text.lines (join (changes.map diffLine)).toList).map Shown.read = changes.map Shown.of := by
  rw [lines_join_diffLine hunbroken, List.map_map]
  refine List.map_congr_left fun c hc => read_diffLine (hdots _ ?_)
  exact List.mem_append.mpr (mem_oldLines_or_mem_newLines hc)

theorem join_append (as bs : List String) : join (as ++ bs) = join as ++ join bs := by
  simp [join]

end FailureText

namespace CheckFailure

open FailureText Text Text.LineDiff

def heading (f : CheckFailure) (state : FailureState) : List String :=
  ["", s!"{label state}: {f.reference}", ""]
    ++ f.sentence.elim [] (fun s => ["  sentence: " ++ quoted s ++ s!" (linkage {f.linkage})", ""])
    ++ ["  " ++ f.kind.message]

def closing (f : CheckFailure) : List String :=
  (hint? f.kind).elim [] fun h => ["", "  hint: " ++ h]

theorem text_eq (f : CheckFailure) (state : FailureState) :
    f.text state = join (f.heading state) ++ join (details f.kind) ++ join f.closing := by
  rw [← join_append, ← join_append]
  rfl

/-- The text of a failed comparison holds a difference of both texts line by line, and from the
lines of any such difference each change is read back: so both texts are found in it, up to blanks
at the ends of lines, and a line is marked where they differ. -/
theorem text_readBack (f : CheckFailure) (state : FailureState) {kind : SectionKind}
    {expected actual : String} (hkind : f.kind = .different kind expected actual) :
    (∃ changes, IsLineDiff changes expected.toList actual.toList ∧
      oldLines changes = splitLines expected.toList ∧
      newLines changes = splitLines actual.toList ∧
      f.text state =
        join (f.heading state) ++ join (changes.map diffLine) ++ join f.closing) ∧
    ∀ changes, IsLineDiff changes expected.toList actual.toList →
      (∀ line ∈ oldLines changes ++ newLines changes, (trimEnd line).getLast? ≠ some '·') →
      let shown := Text.lines (join (changes.map diffLine)).toList
      shown.length = changes.length ∧
        shown.map Shown.read = changes.map Shown.of ∧
        ((shown.map Shown.read).filter (·.change ≠ .added)).map (·.text) =
          (oldLines changes).map trimEnd ∧
        ((shown.map Shown.read).filter (·.change ≠ .removed)).map (·.text) =
          (newLines changes).map trimEnd ∧
        (expected ≠ actual → ∃ line ∈ shown, (Shown.read line).change ≠ .kept) := by
  constructor
  · obtain ⟨hold, hnew⟩ := lines_changes (splitLines expected.toList) (splitLines actual.toList)
    refine ⟨_, isLineDiff_changes expected.toList actual.toList, hold, hnew, ?_⟩
    rw [text_eq, hkind]
    rfl
  · intro changes hdiff hdots shown
    have hread : shown.map Shown.read = changes.map Shown.of :=
      read_lines (fun c hc => (hdiff.unbroken c hc).2) hdots
    have hlength : shown.length = changes.length := by
      rw [← List.length_map Shown.read, hread, List.length_map]
    refine ⟨hlength, hread, ?_, ?_, fun hne => ?_⟩
    · rw [hread]
      exact filter_map_of .added changes
    · rw [hread]
      exact filter_map_of .removed changes
    · obtain ⟨c, hc, hmarked⟩ := hdiff.exists_marked fun h => hne (String.toList_inj.mp h)
      have hof : Shown.of c ∈ shown.map Shown.read := hread ▸ List.mem_map_of_mem hc
      obtain ⟨line, hline, hshows⟩ := List.mem_map.mp hof
      exact ⟨line, hline, by rwa [hshows, change_of]⟩

theorem text_readBack_signs :
    let changes : List (Change × List Char) :=
      [(.removed, "a \n".toList), (.added, "+ a\n".toList), (.kept, "- b\n".toList)]
    IsLineDiff changes "a \n- b\n".toList "+ a\n- b\n".toList ∧
      (Text.lines (join (changes.map diffLine)).toList).map Shown.read =
        [⟨.removed, "a".toList, 1⟩, ⟨.added, "+ a".toList, 0⟩, ⟨.kept, "- b".toList, 0⟩] := by
  intro changes
  have hdiff : IsLineDiff changes "a \n- b\n".toList "+ a\n- b\n".toList :=
    ⟨by decide, by decide, by decide⟩
  let f : CheckFailure :=
    ⟨"parses-en.txt", 2, some "a", 1, .different .constituents "a \n- b\n" "+ a\n- b\n"⟩
  obtain ⟨-, hread, -⟩ := (text_readBack f .regression rfl).2 changes hdiff (by decide)
  exact ⟨hdiff, hread⟩

end CheckFailure

end LinkageCheck
