import LinkageCheck.Proofs.Record.Closing
import Mathlib.Order.Bounds.Basic

/-! A started section that is fed one line after another. The lines alone say where it ends: it
takes all of them up to the first that ends it, and no line behind that until it is started
again. -/

namespace LinkageCheck

def textOfFirst (lines : List String) (n : Nat) : String := String.join (lines.take n)

theorem textOfFirst_succ {lines : List String} {i : Nat} {line : String}
    (h : lines[i]? = some line) :
    textOfFirst lines (i + 1) = textOfFirst lines i ++ line := by
  unfold textOfFirst
  rw [List.take_add_one, h, Option.toList_some, String.join_append, String.join_cons,
    String.join_nil, String.append_empty]

theorem isBlankLine_iff {line : String} :
    isBlankLine line = true ↔ line ∈ ["", "\n", "\r\n"] := by
  simp [isBlankLine, or_assoc]

namespace SectionKind

/-- Line `i` can end the section. A diagram counts this line in, the other sections do not. -/
def EndsAt (kind : SectionKind) (lines : List String) (i : Nat) : Prop :=
  ∃ line, lines[i]? = some line ∧
    match kind with
    | .diagram =>
      textOfFirst lines (i + 1) = "C\nC\n" ∨
        line ∈ ["", "\n", "\r\n"] ∧ 2 < (textOfFirst lines (i + 1)).utf8ByteSize
    | .constituents | .wordPositions =>
      line ∈ ["", "\n", "\r\n"] ∧ 1 < (textOfFirst lines i).utf8ByteSize

def lastAnswer (kind : SectionKind) (lines : List String) (i : Nat) : Feed :=
  match kind with
  | .diagram =>
    if textOfFirst lines (i + 1) = "C\nC\n" then .noLinkage
    else .complete (textOfFirst lines (i + 1))
  | .constituents | .wordPositions => .complete (textOfFirst lines i)

variable {kind : SectionKind} {lines : List String} {i : Nat} {line : String}

theorem endsAt_diagram (h : lines[i]? = some line) :
    diagram.EndsAt lines i ↔ textOfFirst lines (i + 1) = noLinkageMark
      ∨ isBlankLine line ∧ 2 < (textOfFirst lines (i + 1)).utf8ByteSize := by
  simp only [EndsAt, h, Option.some.injEq, exists_eq_left', isBlankLine_iff, noLinkageMark]

theorem endsAt_other (hkind : kind ≠ .diagram) (h : lines[i]? = some line) :
    kind.EndsAt lines i ↔ isBlankLine line ∧ 1 < (textOfFirst lines i).utf8ByteSize := by
  cases kind with
  | diagram => exact absurd rfl hkind
  | constituents | wordPositions =>
    simp only [EndsAt, h, Option.some.injEq, exists_eq_left', isBlankLine_iff]

theorem lastAnswer_diagram : diagram.lastAnswer lines i =
    if textOfFirst lines (i + 1) = noLinkageMark then .noLinkage
    else .complete (textOfFirst lines (i + 1)) := rfl

theorem lastAnswer_other (hkind : kind ≠ .diagram) :
    kind.lastAnswer lines i = .complete (textOfFirst lines i) := by
  cases kind with
  | diagram => exact absurd rfl hkind
  | constituents | wordPositions => rfl

end SectionKind

namespace Section

/-- The answers to lines fed one after another, each with the section that it leaves. -/
def feedAll (s : Section) : List String → List (Feed × Section)
  | [] => []
  | line :: lines => s.feed line :: (s.feed line).2.feedAll lines

def fed (s : Section) (lines : List String) : Section :=
  lines.foldl (fun s line => (s.feed line).2) s

theorem fed_concat (s : Section) (lines : List String) (line : String) :
    s.fed (lines ++ [line]) = ((s.fed lines).feed line).2 := by
  unfold fed
  rw [List.foldl_append, List.foldl_cons, List.foldl_nil]

theorem length_feedAll (s : Section) (lines : List String) :
    (s.feedAll lines).length = lines.length := by
  induction lines generalizing s with
  | nil => rfl
  | cons line lines ih => simp only [feedAll, List.length_cons, ih]

theorem getElem?_feedAll (s : Section) (lines : List String) (i : Nat) :
    (s.feedAll lines)[i]? = lines[i]?.map (s.fed (lines.take i)).feed := by
  induction lines generalizing s i with
  | nil => rfl
  | cons line lines ih =>
    cases i with
    | zero => rfl
    | succ i => exact ih (s.feed line).2 i

theorem kind_feed (s : Section) (line : String) : (s.feed line).2.kind = s.kind := by
  cases hbuffer : s.buffer with
  | none => rw [feed_of_closed hbuffer]
  | some earlier =>
    rw [feed_of_open hbuffer]
    cases s.kind.closing? earlier line <;> rfl

theorem kind_fed (s : Section) (lines : List String) : (s.fed lines).kind = s.kind := by
  induction lines generalizing s with
  | nil => rfl
  | cons line lines ih => exact (ih (s.feed line).2).trans (s.kind_feed line)

def before (kind : SectionKind) (lines : List String) (i : Nat) : Section :=
  ⟨kind, some (textOfFirst lines i)⟩

section

variable {kind : SectionKind} {lines : List String} {i : Nat} {line : String}

theorem feed_of_endsAt (h : lines[i]? = some line) (hend : kind.EndsAt lines i) :
    (before kind lines i).feed line = (kind.lastAnswer lines i, closed kind) := by
  unfold before
  by_cases hkind : kind = .diagram
  · subst hkind
    have hrule := (SectionKind.endsAt_diagram h).mp hend
    rw [feed_diagram, ← textOfFirst_succ h, SectionKind.lastAnswer_diagram]
    by_cases hmark : textOfFirst lines (i + 1) = noLinkageMark
    · rw [if_pos hmark, if_pos hmark, closed]
    · rw [if_neg hmark, if_neg hmark, if_pos (hrule.resolve_left hmark), closed]
  · have hrule := (SectionKind.endsAt_other hkind h).mp hend
    rw [feed_other hkind, if_pos hrule, SectionKind.lastAnswer_other hkind, closed]

theorem feed_of_not_endsAt (h : lines[i]? = some line) (hgo : ¬ kind.EndsAt lines i) :
    (before kind lines i).feed line = (.more, before kind lines (i + 1)) := by
  unfold before
  by_cases hkind : kind = .diagram
  · subst hkind
    rw [SectionKind.endsAt_diagram h, not_or] at hgo
    obtain ⟨hmark, hblank⟩ := hgo
    rw [feed_diagram, ← textOfFirst_succ h, if_neg hmark, if_neg hblank]
  · rw [SectionKind.endsAt_other hkind h] at hgo
    rw [feed_other hkind, if_neg hgo, textOfFirst_succ h]

end

/-- Before line `i` a started section has all lines so far, or one of them has closed it. -/
theorem fed_start (s : Section) {lines : List String} {i : Nat} (hi : i ≤ lines.length) :
    (∀ j < i, ¬ s.kind.EndsAt lines j) ∧ s.start.fed (lines.take i) = before s.kind lines i
      ∨ (∃ j < i, s.kind.EndsAt lines j) ∧ s.start.fed (lines.take i) = closed s.kind := by
  induction i with
  | zero => exact .inl ⟨fun j hj => absurd hj (Nat.not_lt_zero j), rfl⟩
  | succ i ih =>
    have hline : lines[i]? = some lines[i] := List.getElem?_eq_getElem hi
    have htake : lines.take (i + 1) = lines.take i ++ [lines[i]] := by
      rw [List.take_add_one, hline, Option.toList_some]
    rw [htake, fed_concat]
    rcases ih (Nat.le_of_succ_le hi) with ⟨hnone, hfed⟩ | ⟨⟨j, hj, hend⟩, hfed⟩
    · rw [hfed]
      by_cases hend : s.kind.EndsAt lines i
      · right
        exact ⟨⟨i, Nat.lt_succ_self i, hend⟩, by rw [feed_of_endsAt hline hend]⟩
      · left
        refine ⟨fun j hj => ?_, by rw [feed_of_not_endsAt hline hend]⟩
        rcases Nat.lt_succ_iff_lt_or_eq.mp hj with hlt | rfl
        · exact hnone j hlt
        · exact hend
    · right
      exact ⟨⟨j, Nat.lt_succ_of_lt hj, hend⟩, by rw [hfed, feed_of_closed rfl]⟩

theorem fed_start_of_none (s : Section) {lines : List String} {i : Nat} (hi : i ≤ lines.length)
    (h : ∀ j < i, ¬ s.kind.EndsAt lines j) :
    s.start.fed (lines.take i) = before s.kind lines i := by
  rcases s.fed_start hi with ⟨-, hfed⟩ | ⟨⟨j, hj, hend⟩, -⟩
  · exact hfed
  · exact absurd hend (h j hj)

theorem fed_start_of_some (s : Section) {lines : List String} {i : Nat} (hi : i ≤ lines.length)
    (h : ∃ j < i, s.kind.EndsAt lines j) : s.start.fed (lines.take i) = closed s.kind := by
  rcases s.fed_start hi with ⟨hnone, -⟩ | ⟨-, hfed⟩
  · obtain ⟨j, hj, hend⟩ := h
    exact absurd hend (hnone j hj)
  · exact hfed

theorem isPending_before (kind : SectionKind) (lines : List String) (i : Nat) :
    (before kind lines i).isPending = true ↔ textOfFirst lines i ≠ "" := by
  simp [before, isPending]

theorem feedAll_start (s : Section) (lines : List String) :
    (s.start.feedAll lines).length = lines.length
      ∧ ∀ i answer later, (s.start.feedAll lines)[i]? = some (answer, later) →
        ((∀ j ≤ i, ¬ s.kind.EndsAt lines j) →
            answer = .more ∧ later = ⟨s.kind, some (textOfFirst lines (i + 1))⟩
              ∧ (later.isPending = true ↔ textOfFirst lines (i + 1) ≠ ""))
          ∧ (IsLeast {j | s.kind.EndsAt lines j} i →
            answer = s.kind.lastAnswer lines i ∧ later = closed s.kind)
          ∧ ((∃ j < i, s.kind.EndsAt lines j) → answer = .notOpen ∧ later = closed s.kind)
          ∧ later.start = s.start := by
  refine ⟨length_feedAll _ lines, fun i answer later hitem => ?_⟩
  rw [getElem?_feedAll, Option.map_eq_some_iff] at hitem
  obtain ⟨line, hline, hfeed⟩ := hitem
  have hi : i ≤ lines.length := (List.getElem?_eq_some_iff.mp hline).1.le
  have hstay (h : ∀ j ≤ i, ¬ s.kind.EndsAt lines j) :
      (answer, later) = (.more, before s.kind lines (i + 1)) := by
    rw [← hfeed, s.fed_start_of_none hi fun j hj => h j hj.le]
    exact feed_of_not_endsAt hline (h i le_rfl)
  have hleast (h : IsLeast {j | s.kind.EndsAt lines j} i) :
      (answer, later) = (s.kind.lastAnswer lines i, closed s.kind) := by
    rw [← hfeed, s.fed_start_of_none hi fun j hj hend => absurd (h.2 hend) (Nat.not_le.mpr hj)]
    exact feed_of_endsAt hline h.1
  have hbehind (h : ∃ j < i, s.kind.EndsAt lines j) :
      (answer, later) = (.notOpen, closed s.kind) := by
    rw [← hfeed, s.fed_start_of_some hi h, feed_of_closed rfl]
  have hkind : later.kind = s.kind := by
    have hlater : later = ((s.start.fed (lines.take i)).feed line).2 := by rw [hfeed]
    rw [hlater, kind_feed, kind_fed, start]
  refine ⟨fun h => ?_, fun h => ?_, fun h => ?_, ?_⟩
  · obtain ⟨rfl, rfl⟩ := Prod.mk.inj (hstay h)
    exact ⟨rfl, rfl, isPending_before s.kind lines (i + 1)⟩
  · exact Prod.mk.inj (hleast h)
  · exact Prod.mk.inj (hbehind h)
  · simp only [start, hkind]

theorem feedAll_start_blankMark :
    IsLeast {j | SectionKind.diagram.EndsAt ["C\nC", "\n"] j} 1
      ∧ ((closed .diagram).start.feedAll ["C\nC", "\n"])[1]? =
        some (.noLinkage, closed .diagram) := by
  have hleast : IsLeast {j | SectionKind.diagram.EndsAt ["C\nC", "\n"] j} 1 := by
    refine ⟨⟨"\n", rfl, .inl (by decide)⟩, fun j hj => ?_⟩
    rcases j with _ | j
    · obtain ⟨line, hline, hend⟩ := hj
      cases hline
      exact absurd hend (by decide)
    · exact Nat.le_add_left 1 j
  obtain ⟨hlength, hitems⟩ := feedAll_start (closed .diagram) ["C\nC", "\n"]
  have htwo : 1 < ((closed .diagram).start.feedAll ["C\nC", "\n"]).length := by
    rw [hlength]
    exact Nat.one_lt_two
  have hsecond := List.getElem?_eq_getElem htwo
  obtain ⟨hanswer, hlater⟩ := (hitems 1 _ _ hsecond).2.1 hleast
  refine ⟨hleast, hsecond.trans (congrArg some (Prod.ext (hanswer.trans ?_) hlater))⟩
  decide

end Section

end LinkageCheck
