import LinkageCheck.Proofs.Run.Grammar
import LinkageCheck.Proofs.Run.Reached

/-! At most one section is ever pending: what a section has collected must end before a line of any
other kind is taken. -/

namespace LinkageCheck

namespace Sections

variable {s : Sections} {kind : SectionKind}

theorem mem_pending : kind ∈ s.pending ↔ (s.collected kind).any (· != "") = true := by
  rw [pending, List.mem_filter]
  exact and_iff_right (Outline.mem_all kind)

theorem length_pending_le_one (h : ∀ kind ∈ s.pending, ∀ other ∈ s.pending, kind = other) :
    s.pending.length ≤ 1 := by
  have hall : SectionKind.all.Nodup := by decide
  have hnodup : s.pending.Nodup := hall.filter _
  rcases hpending : s.pending with _ | ⟨kind, _ | ⟨other, later⟩⟩
  · exact Nat.zero_le 1
  · exact le_rfl
  · rw [hpending] at h hnodup
    have hsame : kind = other := h kind (by simp) other (by simp)
    simp [hsame] at hnodup

end Sections

variable {α : Type} [Linkage α]

namespace RunSetup

variable {r : RunSetup α} {s s' : RunState α} {l : Line} {ls : List Line} {kind : SectionKind}

theorem section?_of_pending (hs : s.sections.WellPlaced) {step : Flow × RunState α}
    (h : r.line s l = .ok step) (hkind : kind ∈ step.2.sections.pending) :
    l.opcode.section? = some kind := by
  obtain ⟨out, event, heffect⟩ := line_effect hs h
  have hpending : (out.collected kind).any (· != "") = true := by
    rw [← heffect.outline_eq]
    exact Sections.mem_pending.mp hkind
  exact heffect.act.section?_of_pending heffect.inPlace hpending

theorem length_pending_of_line (hs : s.sections.WellPlaced) {step : Flow × RunState α}
    (h : r.line s l = .ok step) : step.2.sections.pending.length ≤ 1 := by
  apply Sections.length_pending_le_one
  intro kind hkind other hother
  have hsection := section?_of_pending hs h hkind
  have hsection' := section?_of_pending hs h hother
  exact Option.some.inj (hsection.symm.trans hsection')

theorem eq_of_pending (hs : s.sections.WellPlaced) (hsection : l.opcode.section? = some kind)
    (hrouted : ∀ e, r.line s l ≠ .error (r.fault l.number (.validation e))) {other : SectionKind}
    (hother : other ∈ s.sections.pending) : other = kind := by
  have hplace : s.outline.unfinished? l.opcode = none := by
    rcases hplace : s.outline.unfinished? l.opcode with _ | unfinished
    · rfl
    · have hline : r.line s l =
          .error (r.fault l.number (.validation (.unfinished unfinished))) := by
        rw [r.line_eq l hs, Outline.step, hplace]
        rfl
      exact absurd hline (hrouted _)
  by_contra hne
  have hquiet := Outline.unfinished?_eq_none.mp hplace other (by
    rw [hsection]
    exact fun h => hne (Option.some.inj h).symm)
  exact Bool.false_ne_true (hquiet.symm.trans (Sections.mem_pending.mp hother))

theorem Goes.length_pending (h : r.Goes s ls s') (hs : s.sections.WellPlaced)
    (hfirst : s.sections.pending.length ≤ 1) : s'.sections.pending.length ≤ 1 := by
  have hkept := h.invariant (I := fun _ t => t.sections.WellPlaced ∧ t.sections.pending.length ≤ 1)
    [] ⟨hs, hfirst⟩ fun taken t l next ht hline => by
      obtain ⟨out, event, heffect⟩ := line_effect ht.1 hline
      exact ⟨heffect.wellPlaced, length_pending_of_line ht.1 hline⟩
  exact hkept.2

end RunSetup

/-- In every state of a run at most one section is pending, and so it is behind every line taken
there, which leaves no section pending but its own. A line that is routed into a section finds no
other section pending. -/
theorem length_pending_of_reaches {d : Dictionary α} {order : CandidateOrder} {stopOnFailure : Bool}
    {path : String} {o : Options} {content : List UInt8} {taken : List Line} {s : RunState α}
    (hreaches : RunSetup.Reaches ⟨d, order, stopOnFailure, path, o⟩ (.initial path o)
      (scan content) taken s) :
    let r : RunSetup α := ⟨d, order, stopOnFailure, path, o⟩
    s.sections.pending.length ≤ 1 ∧ ∀ l,
      (∀ flow s', r.line s l = .ok (flow, s') → s'.sections.pending.length ≤ 1
        ∧ ∀ kind ∈ s'.sections.pending, l.opcode.section? = some kind)
      ∧ ∀ kind, l.opcode.section? = some kind →
        (∀ e, r.line s l ≠ .error (r.fault l.number (.validation e))) →
        ∀ other ∈ s.sections.pending, other = kind := by
  intro r
  have hclosed : (RunState.initial path o : RunState α).sections.WellPlaced :=
    Sections.wellPlaced_closed
  have hs : s.sections.WellPlaced := hreaches.2.wellPlaced hclosed
  have hlone : s.sections.pending.length ≤ 1 :=
    hreaches.2.length_pending hclosed (Nat.zero_le 1)
  refine ⟨hlone, fun l => ⟨fun flow s' hline => ?_, fun kind hsection hrouted other hother => ?_⟩⟩
  · exact ⟨RunSetup.length_pending_of_line hs hline,
      fun kind hkind => RunSetup.section?_of_pending hs hline hkind⟩
  · exact RunSetup.eq_of_pending hs hsection hrouted hother

def halfDiagram : List UInt8 := Text.Utf8.encode "Ihi\nO\nOx\n".toList

theorem length_pending_of_reaches_halfDiagram : ∃ s : RunState RecordedLinkage,
    RunSetup.Reaches ⟨ofTrees ["S"], .engine, false, "t", .standard⟩ (.initial "t" .standard)
      (scan halfDiagram) [⟨1, .sentence, "hi\n"⟩, ⟨2, .diagram, "\n"⟩, ⟨3, .diagram, "x\n"⟩] s
      ∧ s.sections.pending = [.diagram] ∧ s.sections.pending.length ≤ 1 := by
  let r : RunSetup RecordedLinkage := ⟨ofTrees ["S"], .engine, false, "t", .standard⟩
  let ls : List Line := [⟨1, .sentence, "hi\n"⟩, ⟨2, .diagram, "\n"⟩, ⟨3, .diagram, "x\n"⟩]
  have hthrough : (r.through (.initial "t" .standard) ls).any
      (fun s => s.sections.pending = [.diagram]) = true := by
    decide +kernel
  obtain ⟨s, hs, hstate⟩ := Option.any_eq_true _ _ |>.mp hthrough
  have hfirst : ls.map .ok <+: scan halfDiagram := by decide +kernel
  have hreaches : r.Reaches (.initial "t" .standard) (scan halfDiagram) ls s :=
    ⟨hfirst, RunSetup.goes_of_through hs⟩
  exact ⟨s, hreaches, of_decide_eq_true hstate, (length_pending_of_reaches hreaches).1⟩

end LinkageCheck
