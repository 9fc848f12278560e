import LinkageCheck.Proofs.Alike
import Mathlib.Data.List.Forall2

/-! Candidates in two orders that differ only inside the runs of the same cost: once the runs are
sorted by diagram, no comparison tells the two apart. -/

namespace LinkageCheck

variable {α : Type} [Linkage α]

/-! ### Maximal runs of the same cost -/

def Untied (run later : List α) : Prop := ∀ a ∈ run, ∀ b ∈ later, tied a b = false

/-- These lists are the maximal runs of what they make up together. -/
structure TiedRuns (runs : List (List α)) : Prop where
  nonempty : ∀ run ∈ runs, run ≠ []
  tied : ∀ run ∈ runs, run.Pairwise fun a b => tied a b = true
  untied : runs.IsChain Untied

/-- A linkage need not tie with itself, but what ties with one of its run ties with it. -/
theorem tied_of_mem {run : List α} (h : run.Pairwise fun a b => tied a b = true) {a b c : α}
    (ha : a ∈ run) (hb : b ∈ run) (hbc : tied b c = true) : tied a c = true := by
  by_cases hab : a = b
  · rwa [hab]
  · have : Std.Symm fun a b : α => tied a b = true :=
      ⟨fun a b hab => (tied_comm b a).trans hab⟩
    exact tied_trans (h.forall ha hb hab) hbc

theorem untied_of_bounds {run later : List α} (hrun : run.Pairwise fun a b => tied a b = true)
    (hlater : later.Pairwise fun a b => tied a b = true) (hne : run ≠ []) (hne' : later ≠ [])
    (h : tied (run.getLast hne) (later.head hne') = false) : Untied run later := by
  intro a ha b hb
  refine Bool.eq_false_iff.mpr fun hab => Bool.false_ne_true (h.symm.trans ?_)
  have hlast : tied (run.getLast hne) b = true :=
    tied_of_mem hrun (List.getLast_mem hne) ha hab
  rw [tied_comm] at hlast ⊢
  exact tied_of_mem hlater (List.head_mem hne') hb hlast

theorem tiedRuns_splitBy (xs : List α) : TiedRuns (xs.splitBy tied) := by
  have htied : ∀ run ∈ xs.splitBy tied, run.Pairwise fun a b => tied a b = true := by
    have : Trans (fun a b : α => tied a b = true) (fun a b => tied a b = true)
      fun a b => tied a b = true := ⟨tied_trans⟩
    exact fun run hrun => List.isChain_iff_pairwise.mp (List.isChain_of_mem_splitBy hrun)
  refine ⟨fun run hrun => List.ne_nil_of_mem_splitBy hrun, htied, ?_⟩
  have hbounds := List.isChain_getLast_head_splitBy tied xs
  refine hbounds.imp_of_mem_imp fun run later hrun hlater ⟨hne, hne', hends⟩ => ?_
  exact untied_of_bounds (htied run hrun) (htied later hlater) hne hne' hends

namespace TiedRuns

variable {runs runs' : List (List α)}

theorem splitBy_flatten (h : TiedRuns runs) : runs.flatten.splitBy LinkageCheck.tied = runs := by
  apply List.splitBy_flatten
  · exact fun hnil => h.nonempty [] hnil rfl
  · exact fun run hrun => (h.tied run hrun).isChain
  · refine h.untied.imp_of_mem_imp fun run later hrun hlater huntied => ?_
    have hne := h.nonempty run hrun
    have hne' := h.nonempty later hlater
    exact ⟨hne, hne', huntied _ (List.getLast_mem hne) _ (List.head_mem hne')⟩

omit [Linkage α] in
theorem forall_of_perm (hperm : List.Forall₂ List.Perm runs runs') {p : List α → Prop}
    (hp : ∀ run run', run.Perm run' → p run → p run') (h : ∀ run ∈ runs, p run) :
    ∀ run ∈ runs', p run := by
  induction hperm with
  | nil => exact h
  | cons hrun hrest ih =>
    obtain ⟨hfirst, hlater⟩ := List.forall_mem_cons.mp h
    exact List.forall_mem_cons.mpr ⟨hp _ _ hrun hfirst, ih hlater⟩

theorem untied_of_perm (hperm : List.Forall₂ List.Perm runs runs') (h : runs.IsChain Untied) :
    runs'.IsChain Untied := by
  induction hperm with
  | nil => exact .nil
  | @cons run run' rest rest' hrun hrest ih =>
    obtain ⟨hnext, hchain⟩ := List.isChain_cons.mp h
    refine List.isChain_cons.mpr ⟨fun later' hlater' => ?_, ih hchain⟩
    cases hrest with
    | nil => cases hlater'
    | cons hlater =>
      cases hlater'
      exact fun a ha b hb => hnext _ rfl a (hrun.mem_iff.mpr ha) b (hlater.mem_iff.mpr hb)

theorem perm (h : TiedRuns runs) (hperm : List.Forall₂ List.Perm runs runs') : TiedRuns runs' where
  nonempty := by
    refine forall_of_perm hperm (fun run run' hrun hne hnil => hne ?_) h.nonempty
    rw [hnil] at hrun
    exact hrun.eq_nil
  tied := by
    refine forall_of_perm hperm (fun run run' hrun => ?_) h.tied
    exact (hrun.pairwise_iff fun hab => (tied_comm _ _).trans hab).mp
  untied := untied_of_perm hperm h.untied

end TiedRuns

/-! ### Another order inside the runs -/

/-- Linkages of the run that share a diagram share all that comparisons see. -/
def ToldByDiagram (run : List α) : Prop :=
  ∀ a ∈ run, ∀ b ∈ run, Linkage.diagram a = Linkage.diagram b →
    Linkage.constituents a = Linkage.constituents b ∧ Linkage.words a = Linkage.words b

/-- The second list brings the maximal runs of the first one, each in an order of its own. -/
structure TiesPermuted (xs ys : List α) : Prop where
  permuted : ∃ runs, List.Forall₂ List.Perm (xs.splitBy tied) runs ∧ ys = runs.flatten
  told : ∀ run ∈ xs.splitBy tied, ToldByDiagram run

theorem diagramAtMost_trans (a b c : α) (hab : diagramAtMost a b = true)
    (hbc : diagramAtMost b c = true) : diagramAtMost a c = true :=
  decide_eq_true (String.le_trans (of_decide_eq_true hab) (of_decide_eq_true hbc))

theorem diagramAtMost_total (a b : α) : (diagramAtMost a b || diagramAtMost b a) = true := by
  rw [diagramAtMost, diagramAtMost, Bool.or_eq_true, decide_eq_true_eq, decide_eq_true_eq]
  exact String.le_total _ _

theorem pairwise_sortByDiagram (run : List α) :
    ((sortByDiagram run).map Linkage.diagram).Pairwise (· ≤ ·) := by
  have hsorted : (sortByDiagram run).Pairwise fun a b => diagramAtMost a b = true :=
    List.pairwise_mergeSort diagramAtMost_trans diagramAtMost_total run
  exact List.pairwise_map.mpr (hsorted.imp of_decide_eq_true)

theorem map_diagram_sortByDiagram {run run' : List α} (h : run.Perm run') :
    (sortByDiagram run).map Linkage.diagram = (sortByDiagram run').map Linkage.diagram := by
  have hsame : (sortByDiagram run).Perm (sortByDiagram run') :=
    ((List.mergeSort_perm run _).trans h).trans (List.mergeSort_perm run' _).symm
  exact List.Perm.eq_of_pairwise (fun a b _ _ => String.le_antisymm) (pairwise_sortByDiagram run)
    (pairwise_sortByDiagram run') (hsame.map _)

theorem sortByDiagram_alike {run run' : List α} (h : run.Perm run') (htold : ToldByDiagram run) :
    List.Forall₂ Linkage.Alike (sortByDiagram run) (sortByDiagram run') := by
  have hdiagrams : List.Forall₂ (fun a b => Linkage.diagram a = Linkage.diagram b)
      (sortByDiagram run) (sortByDiagram run') := by
    rw [← List.forall₂_map_left_iff (R := fun x b => x = Linkage.diagram b),
      ← List.forall₂_map_right_iff, List.forall₂_eq_eq_eq]
    exact map_diagram_sortByDiagram h
  -- of linkages with one diagram either may come first, but they are told by that diagram
  obtain ⟨hlength, hzip⟩ := List.forall₂_iff_zip.mp hdiagrams
  refine List.forall₂_iff_zip.mpr ⟨hlength, fun {a b} hab => ?_⟩
  obtain ⟨ha, hb⟩ := List.of_mem_zip hab
  have ha' : a ∈ run := List.mem_mergeSort.mp ha
  have hb' : b ∈ run := h.mem_iff.mpr (List.mem_mergeSort.mp hb)
  obtain ⟨hconstituents, hwords⟩ := htold a ha' b hb' (hzip hab)
  exact ⟨hzip hab, hconstituents, hwords⟩

theorem TiesPermuted.sortRuns_alike {xs ys : List α} (h : TiesPermuted xs ys) :
    List.Forall₂ Linkage.Alike (sortRuns xs) (sortRuns ys) := by
  obtain ⟨runs, hperm, rfl⟩ := h.permuted
  -- the permuted runs are again maximal, so sorting finds the same runs in both lists
  have hruns := (tiedRuns_splitBy xs).perm hperm
  rw [sortRuns, sortRuns, hruns.splitBy_flatten]
  have htold := (List.forall₂_and_left _ _).mpr ⟨h.told, hperm⟩
  exact List.rel_flatMap htold fun run run' hrun => sortByDiagram_alike hrun.2 hrun.1

omit [Linkage α] in
theorem rel_getElem? {R : α → α → Prop} {xs ys : List α} (h : List.Forall₂ R xs ys) (i : Nat) :
    Option.Rel R xs[i]? ys[i]? := by
  induction h generalizing i with
  | nil => exact .none
  | cons hfirst hrest ih =>
    rcases i with _ | i
    · exact .some hfirst
    · exact ih i

theorem Cursor.At.alike {xs ys : List α} (hxy : List.Forall₂ Linkage.Alike xs ys) {c c' : Cursor α}
    {i : Nat} (h : c.At xs i) (h' : c'.At ys i) : c.Alike c' := by
  intro n
  induction n generalizing c c' i with
  | zero =>
    change Option.Rel _ c.current c'.current ∧ c.ordinal = c'.ordinal
    rw [h.current, h'.current, h.ordinal, h'.ordinal]
    exact ⟨rel_getElem? hxy i, rfl⟩
  | succ n ih =>
    have hlength : xs.length = ys.length := hxy.length_eq
    exact ih h.advance (hlength ▸ h'.advance)

end LinkageCheck
