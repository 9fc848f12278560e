import LinkageCheck.Proofs.Record.Closing
import LinkageCheck.Proofs.Record.Lines
import Mathlib.Tactic.SplitIfs

/-! The lines of one section inside an entry: they form one block that ends where the closing rule
fires. A reader that sees one line at a time accepts just these entries. -/

namespace LinkageCheck

def EachLine (P : List Line → Line → List Line → Prop) (ls : List Line) : Prop :=
  ∀ before l after, ls = before ++ l :: after → P before l after

theorem eachLine_nil (P : List Line → Line → List Line → Prop) : EachLine P [] := by
  intro before l after h
  exact absurd h.symm (List.append_ne_nil_of_right_ne_nil _ (List.cons_ne_nil _ _))

theorem eachLine_of_mem {P : List Line → Line → List Line → Prop} {ls : List Line}
    (h : ∀ l ∈ ls, ∀ before after, P before l after) : EachLine P ls := by
  intro before l after hls
  refine h l ?_ before after
  rw [hls]
  exact List.mem_append_right _ List.mem_cons_self

theorem eachLine_cons {P : List Line → Line → List Line → Prop} {l : Line} {ls : List Line} :
    EachLine P (l :: ls) ↔ P [] l ls ∧ EachLine (fun before => P (l :: before)) ls := by
  refine ⟨fun h => ⟨h [] l ls rfl, fun before m after hls => ?_⟩, fun ⟨hfirst, hrest⟩ => ?_⟩
  · apply h (l :: before)
    rw [hls, List.cons_append]
  · intro before m after hls
    rcases before with _ | ⟨b, before⟩
    · obtain ⟨rfl, rfl⟩ := List.cons.inj hls
      exact hfirst
    · obtain ⟨rfl, htail⟩ := List.cons.inj hls
      exact hrest before m after htail

theorem EachLine.imp {P Q : List Line → Line → List Line → Prop} {ls : List Line}
    (h : EachLine P ls) (hPQ : ∀ before l after, P before l after → Q before l after) :
    EachLine Q ls := by
  intro before l after hls
  exact hPQ before l after (h before l after hls)

/-- An empty section text stands in the last line only. A file has such a line only where its last
line lacks a line end. -/
def Solid (ls : List Line) : Prop :=
  EachLine (fun _ l after => l.opcode.section? ≠ none → l.text = "" → after = []) ls

theorem Solid.tail {l : Line} {ls : List Line} (h : Solid (l :: ls)) : Solid ls :=
  (eachLine_cons.mp h).2

namespace SectionKind

variable {kind : SectionKind}

/-- Behind the text `earlier`, the closing rule fires at the last line of a block and at no other
line. -/
def Closes (kind : SectionKind) (earlier : String) (block : List Line) : Prop :=
  block ≠ [] ∧ EachLine (fun before l after =>
    (kind.closing? (earlier ++ textOf kind before) l.text).isSome ↔ after = []) block

/-- The lines of a section form one block, and it is closed at its end unless it has no text. -/
def OneBlock (kind : SectionKind) (entry : List Line) : Prop :=
  ∃ before block after, entry = before ++ block ++ after
    ∧ (∀ l ∈ before ++ after, l.opcode.section? ≠ some kind)
    ∧ (∀ l ∈ block, l.opcode.section? = some kind)
    ∧ (kind.Closes "" block ∨ textOf kind block = "")

def take (kind : SectionKind) (buffer : Option String) (l : Line) : Option (Option String) :=
  if l.opcode.section? = some kind then
    buffer.map fun earlier =>
      if (kind.closing? earlier l.text).isSome then none else some (earlier ++ l.text)
  else if buffer.any (· != "") then none
  else some buffer

def Reads (kind : SectionKind) : Option String → List Line → Prop
  | buffer, [] => buffer.any (· != "") = false
  | buffer, l :: ls => ∃ later, kind.take buffer l = some later ∧ kind.Reads later ls

theorem take_of_section {buffer : Option String} {l : Line}
    (h : l.opcode.section? = some kind) :
    kind.take buffer l = buffer.map fun earlier =>
      if (kind.closing? earlier l.text).isSome then none else some (earlier ++ l.text) := by
  rw [take, if_pos h]

theorem take_of_other {buffer : Option String} {l : Line} (h : l.opcode.section? ≠ some kind) :
    kind.take buffer l = if buffer.any (· != "") then none else some buffer := by
  rw [take, if_neg h]

theorem closing?_empty (kind : SectionKind) : kind.closing? "" "" = none := by
  cases kind <;> decide

theorem reads_of_others {buffer : Option String} {ls : List Line}
    (hrest : buffer.any (· != "") = false) (h : ∀ l ∈ ls, l.opcode.section? ≠ some kind) :
    kind.Reads buffer ls := by
  induction ls with
  | nil => exact hrest
  | cons l ls ih =>
    obtain ⟨hl, hls⟩ := List.forall_mem_cons.mp h
    rw [Reads, take_of_other hl, hrest, if_neg Bool.false_ne_true]
    exact ⟨buffer, rfl, ih hls⟩

theorem reads_none {ls : List Line} :
    kind.Reads none ls ↔ ∀ l ∈ ls, l.opcode.section? ≠ some kind := by
  refine ⟨fun h => ?_, reads_of_others rfl⟩
  induction ls with
  | nil => exact fun l hl => absurd hl List.not_mem_nil
  | cons l ls ih =>
    obtain ⟨later, htake, hrest⟩ := h
    by_cases hl : l.opcode.section? = some kind
    · rw [take_of_section hl] at htake
      exact absurd htake.symm (Option.some_ne_none later)
    · rw [take_of_other hl] at htake
      rw [← Option.some.inj htake] at hrest
      exact List.forall_mem_cons.mpr ⟨hl, ih hrest⟩

theorem closes_cons {earlier : String} {l : Line} {ls : List Line}
    (h : l.opcode.section? = some kind) :
    kind.Closes earlier (l :: ls) ↔
      ((kind.closing? earlier l.text).isSome ↔ ls = [])
        ∧ (ls ≠ [] → kind.Closes (earlier ++ l.text) ls) := by
  have hnil : textOf kind [] = "" := rfl
  have hcons : ∀ before, earlier ++ textOf kind (l :: before) =
      earlier ++ l.text ++ textOf kind before := by
    intro before
    rw [textOf_cons h, String.append_assoc]
  rw [Closes, eachLine_cons, hnil, String.append_empty]
  simp only [hcons]
  refine ⟨fun ⟨_, hfirst, hrest⟩ => ⟨hfirst, fun hls => ⟨hls, hrest⟩⟩, fun ⟨hfirst, hrest⟩ => ?_⟩
  refine ⟨List.cons_ne_nil _ _, hfirst, ?_⟩
  by_cases hls : ls = []
  · rw [hls]
    exact eachLine_nil _
  · exact (hrest hls).2

theorem reads_of_closes {earlier : String} {block after : List Line}
    (hclose : kind.Closes earlier block) (hblock : ∀ l ∈ block, l.opcode.section? = some kind)
    (hafter : ∀ l ∈ after, l.opcode.section? ≠ some kind) :
    kind.Reads (some earlier) (block ++ after) := by
  induction block generalizing earlier with
  | nil => exact absurd rfl hclose.1
  | cons l block ih =>
    have hl := hblock l List.mem_cons_self
    obtain ⟨hfirst, hrest⟩ := (closes_cons hl).mp hclose
    rw [List.cons_append, Reads, take_of_section hl]
    by_cases hnil : block = []
    · refine ⟨none, ?_, ?_⟩
      · rw [Option.map_some, if_pos (hfirst.mpr hnil)]
      · rw [hnil, List.nil_append]
        exact reads_none.mpr hafter
    · refine ⟨some (earlier ++ l.text), ?_, ?_⟩
      · rw [Option.map_some, if_neg (fun h => hnil (hfirst.mp h))]
      · exact ih (hrest hnil) fun m hm => hblock m (List.mem_cons_of_mem _ hm)

theorem closes_of_reads {earlier : String} {ls : List Line} (hne : earlier ≠ "")
    (h : kind.Reads (some earlier) ls) :
    ∃ block after, ls = block ++ after ∧ kind.Closes earlier block
      ∧ (∀ l ∈ block, l.opcode.section? = some kind)
      ∧ (∀ l ∈ after, l.opcode.section? ≠ some kind) := by
  induction ls generalizing earlier with
  | nil =>
    rw [Reads] at h
    exact absurd h (by simpa using hne)
  | cons l ls ih =>
    obtain ⟨later, htake, hrest⟩ := h
    by_cases hl : l.opcode.section? = some kind
    · rw [take_of_section hl, Option.map_some] at htake
      split_ifs at htake with hfires
      · obtain rfl := Option.some.inj htake
        refine ⟨[l], ls, rfl, (closes_cons hl).mpr ?_, ?_, reads_none.mp hrest⟩
        · exact ⟨⟨fun _ => rfl, fun _ => hfires⟩, fun hnil => absurd rfl hnil⟩
        · exact List.forall_mem_singleton.mpr hl
      · obtain rfl := Option.some.inj htake
        -- with some text collected, no line of another section may come before the end
        have hlonger : earlier ++ l.text ≠ "" := by
          intro h
          exact hne (String.append_eq_empty_iff.mp h).1
        obtain ⟨block, after, rfl, hclose, hblock, hafter⟩ := ih hlonger hrest
        refine ⟨l :: block, after, rfl, (closes_cons hl).mpr ⟨?_, fun _ => hclose⟩, ?_, hafter⟩
        · exact ⟨fun h => absurd h hfires, fun h => absurd h hclose.1⟩
        · exact List.forall_mem_cons.mpr ⟨hl, hblock⟩
    · rw [take_of_other hl, Option.any_some, if_pos (by simpa using hne)] at htake
      exact absurd htake.symm (Option.some_ne_none later)

theorem oneBlock_cons {l : Line} {ls : List Line} (hl : l.opcode.section? ≠ some kind)
    (h : kind.OneBlock ls) : kind.OneBlock (l :: ls) := by
  obtain ⟨before, block, after, rfl, houtside, hblock, hclose⟩ := h
  exact ⟨l :: before, block, after, rfl, List.forall_mem_cons.mpr ⟨hl, houtside⟩, hblock, hclose⟩

theorem oneBlock_of_closes {block after : List Line} (hclose : kind.Closes "" block)
    (hblock : ∀ l ∈ block, l.opcode.section? = some kind)
    (hafter : ∀ l ∈ after, l.opcode.section? ≠ some kind) : kind.OneBlock (block ++ after) :=
  ⟨[], block, after, rfl, hafter, hblock, .inl hclose⟩

theorem oneBlock_of_reads {ls : List Line} (hsolid : Solid ls) (h : kind.Reads (some "") ls) :
    kind.OneBlock ls := by
  induction ls with
  | nil =>
    exact ⟨[], [], [], rfl, fun l hl => absurd hl List.not_mem_nil,
      fun l hl => absurd hl List.not_mem_nil, .inr rfl⟩
  | cons l ls ih =>
    obtain ⟨later, htake, hrest⟩ := h
    by_cases hl : l.opcode.section? = some kind
    · have hsingle : ∀ m ∈ [l], m.opcode.section? = some kind := List.forall_mem_singleton.mpr hl
      rw [take_of_section hl, Option.map_some, String.empty_append] at htake
      split_ifs at htake with hfires
      · obtain rfl := Option.some.inj htake
        have hclose : kind.Closes "" [l] :=
          (closes_cons hl).mpr ⟨⟨fun _ => rfl, fun _ => hfires⟩, fun hnil => absurd rfl hnil⟩
        exact oneBlock_of_closes hclose hsingle (reads_none.mp hrest)
      · obtain rfl := Option.some.inj htake
        by_cases htext : l.text = ""
        · -- the last line of a file that has no line end
          have hsection : l.opcode.section? ≠ none := by
            rw [hl]
            exact Option.some_ne_none kind
          obtain rfl : ls = [] := (eachLine_cons.mp hsolid).1 hsection htext
          refine ⟨[], [l], [], rfl, fun m hm => absurd hm List.not_mem_nil, hsingle, .inr ?_⟩
          rw [textOf_cons hl, htext]
          rfl
        · obtain ⟨block, after, rfl, hclose, hblock, hafter⟩ := closes_of_reads htext hrest
          have hall : ∀ m ∈ l :: block, m.opcode.section? = some kind :=
            List.forall_mem_cons.mpr ⟨hl, hblock⟩
          have hlonger : kind.Closes "" (l :: block) := by
            refine (closes_cons hl).mpr ⟨⟨fun h => absurd h hfires, fun h => absurd h hclose.1⟩, ?_⟩
            rw [String.empty_append]
            exact fun _ => hclose
          exact oneBlock_of_closes hlonger hall hafter
    · rw [take_of_other hl] at htake
      obtain rfl : some "" = later := Option.some.inj htake
      exact oneBlock_cons hl (ih hsolid.tail hrest)

theorem reads_of_textless {block after : List Line}
    (hblock : ∀ l ∈ block, l.opcode.section? = some kind) (htext : textOf kind block = "")
    (hafter : ∀ l ∈ after, l.opcode.section? ≠ some kind) :
    kind.Reads (some "") (block ++ after) := by
  induction block with
  | nil => exact reads_of_others rfl hafter
  | cons l block ih =>
    obtain ⟨hl, hblock⟩ := List.forall_mem_cons.mp hblock
    rw [textOf_cons hl] at htext
    obtain ⟨hline, hrest⟩ := String.append_eq_empty_iff.mp htext
    rw [List.cons_append, Reads, take_of_section hl, hline, Option.map_some, closing?_empty]
    exact ⟨some "", rfl, ih hblock hrest⟩

theorem reads_of_oneBlock {ls : List Line} (h : kind.OneBlock ls) : kind.Reads (some "") ls := by
  obtain ⟨before, block, after, rfl, houtside, hblock, hclose⟩ := h
  induction before with
  | nil =>
    rcases hclose with hclose | htext
    · exact reads_of_closes hclose hblock houtside
    · exact reads_of_textless hblock htext houtside
  | cons l before ih =>
    obtain ⟨hl, houtside⟩ := List.forall_mem_cons.mp houtside
    rw [List.cons_append, List.cons_append, Reads, take_of_other hl]
    exact ⟨some "", rfl, ih houtside⟩

def ending (kind : SectionKind) : List Line :=
  [⟨0, kind.lineOpcode, "x\n"⟩, ⟨0, kind.lineOpcode, "\n"⟩]

theorem mem_ending {l : Line} (h : l ∈ kind.ending) :
    l.opcode = kind.lineOpcode ∧ l.text ≠ "" := by
  have hfirst : "x\n" ≠ "" := by decide
  have hlast : "\n" ≠ "" := by decide
  rcases List.mem_cons.mp h with rfl | h
  · exact ⟨rfl, hfirst⟩
  · rw [List.mem_singleton.mp h]
    exact ⟨rfl, hlast⟩

theorem append_ne_noLinkageMark (earlier : String) {line : String}
    (h : ¬ line.toList <:+ noLinkageMark.toList) : earlier ++ line ≠ noLinkageMark := by
  intro heq
  apply h
  rw [← heq, String.toList_append]
  exact List.suffix_append _ _

theorem reads_ending (kind : SectionKind) (earlier : String) :
    kind.Reads (some earlier) kind.ending := by
  have hmark : earlier ++ "x\n" ≠ noLinkageMark := append_ne_noLinkageMark _ (by decide)
  have hmark' : earlier ++ "x\n" ++ "\n" ≠ noLinkageMark := by
    rw [String.append_assoc]
    exact append_ne_noLinkageMark _ (by decide)
  have hblank : isBlankLine "x\n" = false := by decide
  have hblank' : isBlankLine "\n" = true := by decide
  have hopen : kind.closing? earlier "x\n" = none := by
    cases kind <;> simp [closing?, hmark, hblank]
  have hfires : (kind.closing? (earlier ++ "x\n") "\n").isSome := by
    have hsize : "x\n".utf8ByteSize = 2 := by decide
    have hsize' : "\n".utf8ByteSize = 1 := by decide
    cases kind <;> simp [closing?, hmark', hblank', String.utf8ByteSize_append, hsize, hsize']
  have hsection := kind.section?_lineOpcode
  rw [ending, Reads, take_of_section hsection, Option.map_some, hopen]
  refine ⟨some (earlier ++ "x\n"), rfl, ?_⟩
  rw [Reads, take_of_section hsection, Option.map_some, if_pos hfires]
  exact ⟨none, rfl, rfl⟩

end SectionKind

end LinkageCheck
