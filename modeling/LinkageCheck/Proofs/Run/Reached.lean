import LinkageCheck.Proofs.Run.Settling

/-! The states that a run reaches behind the lines that it takes one after the other, and how a run
ends well. -/

namespace LinkageCheck

variable {α : Type} [Linkage α]

namespace RunSetup

/-- The run takes these lines one after the other, without an error and without a stop. -/
inductive Goes (r : RunSetup α) : RunState α → List Line → RunState α → Prop where
  | nil (s : RunState α) : Goes r s [] s
  | cons {s next s' : RunState α} {l : Line} {ls : List Line}
    (hline : r.line s l = .ok (.goOn, next)) (hrest : Goes r next ls s') : Goes r s (l :: ls) s'

def through (r : RunSetup α) (s : RunState α) : List Line → Option (RunState α)
  | [] => some s
  | l :: ls =>
    match r.line s l with
    | .ok (.goOn, next) => r.through next ls
    | _ => none

/-- The run takes the lines `taken`, which are the first of these items, and is in `s'` then. -/
def Reaches (r : RunSetup α) (s : RunState α) (items : List (Except ScanError Line))
    (taken : List Line) (s' : RunState α) : Prop :=
  taken.map .ok <+: items ∧ r.Goes s taken s'

variable {r : RunSetup α} {s s' s'' : RunState α} {l : Line} {ls later : List Line}
  {items : List (Except ScanError Line)}

theorem Goes.append (h : r.Goes s ls s') (hlater : r.Goes s' later s'') :
    r.Goes s (ls ++ later) s'' := by
  induction h with
  | nil s => exact hlater
  | cons hline hrest ih => exact .cons hline (ih hlater)

theorem Goes.lines_append (h : r.Goes s ls s') (items : List (Except ScanError Line)) :
    r.lines s (ls.map .ok ++ items) = r.lines s' items := by
  induction h with
  | nil s => rfl
  | cons hline hrest ih =>
    rw [List.map_cons, List.cons_append, lines, hline]
    exact ih

theorem Goes.lines_eq (h : r.Goes s ls s') : r.lines s (ls.map .ok) = r.finish s' := by
  have hlines := h.lines_append []
  rwa [List.append_nil] at hlines

theorem goes_of_through (h : r.through s ls = some s') : r.Goes s ls s' := by
  induction ls generalizing s with
  | nil =>
    obtain rfl := Option.some.inj h
    exact .nil s
  | cons l ls ih =>
    rw [through] at h
    rcases hline : r.line s l with e | ⟨_ | _, next⟩
    · rw [hline] at h
      cases h
    · rw [hline] at h
      exact .cons hline (ih h)
    · rw [hline] at h
      cases h

/-- What every line that is taken keeps, told of the lines taken so far, holds behind all lines. -/
theorem Goes.invariant {I : List Line → RunState α → Prop} (h : r.Goes s ls s')
    (before : List Line) (hfirst : I before s)
    (hstep : ∀ taken t l next, I taken t → r.line t l = .ok (.goOn, next) → I (taken ++ [l]) next) :
    I (before ++ ls) s' := by
  induction h generalizing before with
  | nil s =>
    rw [List.append_nil]
    exact hfirst
  | cons hline hrest ih =>
    rw [List.append_cons]
    exact ih _ (hstep _ _ _ _ hfirst hline)

theorem Goes.wellPlaced (h : r.Goes s ls s') (hs : s.sections.WellPlaced) :
    s'.sections.WellPlaced := by
  apply h.invariant (I := fun _ t => t.sections.WellPlaced) [] hs
  intro taken t l next ht hline
  obtain ⟨out, event, heffect⟩ := line_effect ht hline
  exact heffect.wellPlaced

theorem Goes.report (h : r.Goes s ls s') (hs : s.sections.WellPlaced) :
    s'.report.path = s.report.path ∧ s'.report.stoppedEarly = s.report.stoppedEarly := by
  induction h with
  | nil s => exact ⟨rfl, rfl⟩
  | cons hline hrest ih =>
    obtain ⟨out, event, heffect⟩ := line_effect hs hline
    obtain ⟨hpath, hstopped⟩ := heffect.effect.report
    obtain ⟨hpath', hstopped'⟩ := ih heffect.wellPlaced
    exact ⟨hpath'.trans hpath, hstopped'.trans hstopped⟩

theorem reaches_cons (hline : r.line s l = .ok (.goOn, s')) (h : r.Reaches s' items ls s'') :
    r.Reaches s (.ok l :: items) (l :: ls) s'' :=
  ⟨List.cons_prefix_cons.mpr ⟨rfl, h.1⟩, .cons hline h.2⟩

theorem Reaches.cases (h : r.Reaches s items ls s') :
    (ls = [] ∧ s' = s) ∨ ∃ l later rest next, ls = l :: later ∧ items = .ok l :: rest
      ∧ r.line s l = .ok (.goOn, next) ∧ r.Reaches next rest later s' := by
  obtain ⟨hfirst, hgoes⟩ := h
  cases hgoes with
  | nil => exact .inl ⟨rfl, rfl⟩
  | @cons s next s' l later hline hrest =>
    obtain ⟨rest, rfl⟩ := hfirst
    exact .inr ⟨l, later, _, next, rfl, rfl, hline, List.prefix_append _ rest, hrest⟩

theorem lines_eq_ok {report : Report} (h : (r.lines s items).result = .ok report) :
    (∃ ls s', items = ls.map .ok ∧ r.Goes s ls s' ∧ report = s'.report)
      ∨ ∃ ls l t s', r.Reaches s items ls t ∧ (ls ++ [l]).map .ok <+: items
        ∧ r.line t l = .ok (.stop, s') ∧ report = { s'.report with stoppedEarly := true } := by
  induction items generalizing s with
  | nil =>
    refine .inl ⟨[], s, rfl, .nil s, ?_⟩
    rw [lines, finish] at h
    split at h
    · exact (Except.ok.inj h).symm
    · cases h
  | cons item items ih =>
    rcases item with e | l
    · cases h
    · rw [lines] at h
      rcases hline : r.line s l with e | ⟨_ | _, next⟩
      · rw [hline] at h
        cases h
      · rw [hline] at h
        rcases ih h with ⟨ls, s', rfl, hgoes, hreport⟩ | ⟨ls, m, t, s', hreaches, hfirst, hrest⟩
        · exact .inl ⟨l :: ls, s', rfl, .cons hline hgoes, hreport⟩
        · exact .inr ⟨l :: ls, m, t, s', reaches_cons hline hreaches,
            List.cons_prefix_cons.mpr ⟨rfl, hfirst⟩, hrest⟩
      · rw [hline] at h
        exact .inr ⟨[], l, s, next, ⟨List.nil_prefix, .nil s⟩,
          List.cons_prefix_cons.mpr ⟨rfl, List.nil_prefix⟩, hline, (Except.ok.inj h).symm⟩

end RunSetup

end LinkageCheck
