import LinkageCheck.Record.Section
import Mathlib.Logic.Function.Basic
import Mathlib.Tactic.SplitIfs

/-! When a section ends, told by the texts of its lines alone: a section that is open behaves by
this rule on the text collected so far, and a closed one takes no line. -/

namespace LinkageCheck

/-- What a section expects once it has ended. -/
inductive Closing where
  | noLinkage
  | text (expected : String)
  deriving DecidableEq, Repr

/-- The closing rule: whether a line ends a section whose earlier lines read `earlier`. -/
def SectionKind.closing? (kind : SectionKind) (earlier line : String) : Option Closing :=
  match kind with
  | .diagram =>
    if earlier ++ line = noLinkageMark then some .noLinkage
    else if isBlankLine line ∧ 2 < (earlier ++ line).utf8ByteSize then
      some (.text (earlier ++ line))
    else none
  | .constituents | .wordPositions =>
    if isBlankLine line ∧ 1 < earlier.utf8ByteSize then some (.text earlier) else none

def Closing.feed : Closing → Feed
  | noLinkage => .noLinkage
  | text expected => .complete expected

namespace Section

theorem feed_of_closed {s : Section} (h : s.buffer = none) (line : String) :
    s.feed line = (.notOpen, s) := by
  rw [feed, isOpen, h]
  rfl

theorem isTerminator_iff {s : Section} {text : String} (h : s.buffer = some text)
    (line : String) :
    s.isTerminator line = true ↔ isBlankLine line ∧ leastBytes s.kind ≤ text.utf8ByteSize := by
  rw [isTerminator, h]
  simp only [Bool.and_eq_true, decide_eq_true_eq]

theorem feed_diagram (earlier line : String) :
    feed ⟨.diagram, some earlier⟩ line =
      if earlier ++ line = noLinkageMark then (.noLinkage, ⟨.diagram, none⟩)
      else if isBlankLine line ∧ 2 < (earlier ++ line).utf8ByteSize then
        (.complete (earlier ++ line), ⟨.diagram, none⟩)
      else (.more, ⟨.diagram, some (earlier ++ line)⟩) := by
  have hend := isTerminator_iff (s := ⟨.diagram, some (earlier ++ line)⟩) rfl line
  change (if some (earlier ++ line) = some noLinkageMark then _
    else if isTerminator ⟨.diagram, some (earlier ++ line)⟩ line then _ else _) = _
  simp only [Option.some.injEq, hend]
  rfl

theorem feed_other {kind : SectionKind} (hkind : kind ≠ .diagram) (earlier line : String) :
    feed ⟨kind, some earlier⟩ line =
      if isBlankLine line ∧ 1 < earlier.utf8ByteSize then (.complete earlier, ⟨kind, none⟩)
      else (.more, ⟨kind, some (earlier ++ line)⟩) := by
  have hend := isTerminator_iff (s := ⟨kind, some earlier⟩) rfl line
  cases kind with
  | diagram => exact absurd rfl hkind
  | constituents =>
    change (if isTerminator ⟨.constituents, some earlier⟩ line then _ else _) = _
    simp only [hend]
    rfl
  | wordPositions =>
    change (if isTerminator ⟨.wordPositions, some earlier⟩ line then _ else _) = _
    simp only [hend]
    rfl

theorem feed_of_open {s : Section} {earlier : String} (h : s.buffer = some earlier)
    (line : String) :
    s.feed line = match s.kind.closing? earlier line with
      | some closing => (closing.feed, ⟨s.kind, none⟩)
      | none => (.more, ⟨s.kind, some (earlier ++ line)⟩) := by
  rcases s with ⟨kind, buffer⟩
  obtain rfl : buffer = some earlier := h
  cases kind with
  | diagram =>
    rw [feed_diagram, SectionKind.closing?]
    split_ifs <;> rfl
  | constituents =>
    rw [feed_other (by decide), SectionKind.closing?]
    split_ifs <;> rfl
  | wordPositions =>
    rw [feed_other (by decide), SectionKind.closing?]
    split_ifs <;> rfl

end Section

namespace Sections

def collected (s : Sections) (kind : SectionKind) : Option String := (s.get kind).buffer

def WellPlaced (s : Sections) : Prop := ∀ kind, (s.get kind).kind = kind

theorem wellPlaced_closed : closed.WellPlaced := by
  intro kind
  cases kind <;> rfl

theorem collected_closed (kind : SectionKind) : closed.collected kind = none := by
  cases kind <;> rfl

theorem feed_of_closed {s : Sections} {kind : SectionKind} (h : s.collected kind = none)
    (line : String) : (s.feed kind line).1 = .notOpen := by
  simp only [feed, Section.feed_of_closed h]

def ofCollected (collected : SectionKind → Option String) : Sections :=
  ⟨⟨.diagram, collected .diagram⟩, ⟨.constituents, collected .constituents⟩,
    ⟨.wordPositions, collected .wordPositions⟩⟩

theorem wellPlaced_ofCollected (collected : SectionKind → Option String) :
    (ofCollected collected).WellPlaced := by
  intro kind
  cases kind <;> rfl

theorem collected_ofCollected (collected : SectionKind → Option String) :
    (ofCollected collected).collected = collected := by
  funext kind
  cases kind <;> rfl

theorem WellPlaced.eq_ofCollected {s : Sections} (h : s.WellPlaced) :
    s = ofCollected s.collected := by
  rcases s with ⟨⟨k, b⟩, ⟨k', b'⟩, ⟨k'', b''⟩⟩
  obtain rfl : k = .diagram := h .diagram
  obtain rfl : k' = .constituents := h .constituents
  obtain rfl : k'' = .wordPositions := h .wordPositions
  rfl

theorem set_eq_ofCollected {s : Sections} (hs : s.WellPlaced) (kind : SectionKind)
    (buffer : Option String) :
    s.set kind ⟨kind, buffer⟩ = ofCollected (Function.update s.collected kind buffer) := by
  rw [hs.eq_ofCollected]
  cases kind <;> rfl

theorem startAll_eq_ofCollected {s : Sections} (hs : s.WellPlaced) :
    s.startAll = ofCollected fun _ => some "" := by
  rw [hs.eq_ofCollected]
  rfl

theorem feed_of_open {s : Sections} (hs : s.WellPlaced) {kind : SectionKind} {earlier : String}
    (h : s.collected kind = some earlier) (line : String) :
    s.feed kind line = match kind.closing? earlier line with
      | some closing => (closing.feed, ofCollected (Function.update s.collected kind none))
      | none =>
        (.more, ofCollected (Function.update s.collected kind (some (earlier ++ line)))) := by
  have hfeed := Section.feed_of_open h line
  rw [hs kind] at hfeed
  simp only [feed, hfeed]
  rcases kind.closing? earlier line with _ | closing
  · exact Prod.ext rfl (set_eq_ofCollected hs kind _)
  · exact Prod.ext rfl (set_eq_ofCollected hs kind _)

end Sections

end LinkageCheck
