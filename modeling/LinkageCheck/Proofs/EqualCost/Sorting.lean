import LinkageCheck.Proofs.Decimal.Binary64
import LinkageCheck.Proofs.Pulls
import LinkageCheck.Proofs.Traversal
import LinkageCheck.Proofs.Text.ByteOrder
import LinkageCheck.Proofs.Ties

/-! Candidates of equal cost are handed out sorted by diagram, run by run: the maximal runs of
neighbours with the same cost keep their places, and each of them is sorted stably. -/

namespace LinkageCheck

variable {α : Type} [Linkage α]

/-! ### Stable sorting by diagram -/

def diagramBytes (a : α) : List UInt8 := Text.Utf8.encode (Linkage.diagram a).toList

/-- In the order of the bytes of the diagrams, and linkages with one diagram in their old order. -/
structure StablySorted (run sorted : List α) : Prop where
  perm : run.Perm sorted
  ordered : sorted.Pairwise fun a b => ¬ diagramBytes b < diagramBytes a
  stable : ∀ text, sorted.filter (Linkage.diagram · = text) = run.filter (Linkage.diagram · = text)

theorem filter_sortByDiagram (run : List α) (text : String) :
    (sortByDiagram run).filter (Linkage.diagram · = text)
      = run.filter (Linkage.diagram · = text) := by
  apply filter_mergeSort diagramAtMost_trans diagramAtMost_total
  intro a b ha hb
  rw [diagramAtMost, of_decide_eq_true ha, of_decide_eq_true hb]
  exact decide_eq_true (String.le_refl text)

theorem stablySorted_sortByDiagram (run : List α) : StablySorted run (sortByDiagram run) where
  perm := (List.mergeSort_perm run diagramAtMost).symm
  ordered := by
    have hsorted := List.pairwise_map.mp (pairwise_sortByDiagram run)
    exact hsorted.imp fun h => (Text.Utf8.le_iff_not_encode_lt _ _).mp h
  stable := filter_sortByDiagram run

theorem head_le_of_filter_eq {x : α} {xs ys : List α}
    (hx : (x :: xs).Pairwise fun a b => ¬ diagramBytes b < diagramBytes a)
    (h : ∀ text, (x :: xs).filter (Linkage.diagram · = text) = ys.filter (Linkage.diagram · = text))
    {y : α} (hy : y ∈ ys) : Linkage.diagram x ≤ Linkage.diagram y := by
  have hmem : y ∈ (x :: xs).filter (Linkage.diagram · = Linkage.diagram y) := by
    rw [h]
    exact List.mem_filter.mpr ⟨hy, decide_eq_true rfl⟩
  rcases List.mem_cons.mp (List.mem_filter.mp hmem).1 with rfl | hlater
  · exact String.le_refl _
  · exact (Text.Utf8.le_iff_not_encode_lt _ _).mpr ((List.pairwise_cons.mp hx).1 y hlater)

/-- Lists in order that hold the same linkages of each diagram are the same. -/
theorem eq_of_filter_eq {xs ys : List α}
    (hx : xs.Pairwise fun a b => ¬ diagramBytes b < diagramBytes a)
    (hy : ys.Pairwise fun a b => ¬ diagramBytes b < diagramBytes a)
    (h : ∀ text, xs.filter (Linkage.diagram · = text) = ys.filter (Linkage.diagram · = text)) :
    xs = ys := by
  induction xs generalizing ys with
  | nil =>
    refine (List.eq_nil_iff_forall_not_mem.mpr fun y hmem => ?_).symm
    have hnone := h (Linkage.diagram y)
    rw [List.filter_nil, eq_comm, List.filter_eq_nil_iff] at hnone
    exact hnone y hmem (decide_eq_true rfl)
  | cons x xs ih =>
    rcases ys with _ | ⟨y, ys⟩
    · have hnone := h (Linkage.diagram x)
      rw [List.filter_nil, List.filter_eq_nil_iff] at hnone
      exact absurd (decide_eq_true rfl) (hnone x List.mem_cons_self)
    · have hle := head_le_of_filter_eq hx h (List.mem_cons_self (a := y))
      have hge := head_le_of_filter_eq hy (fun text => (h text).symm) (List.mem_cons_self (a := x))
      have hdiagram := String.le_antisymm hle hge
      have hfirst := h (Linkage.diagram y)
      simp only [List.filter_cons, hdiagram, decide_true, if_true] at hfirst
      obtain ⟨rfl, -⟩ := List.cons.inj hfirst
      have hrest : xs = ys := by
        refine ih (List.pairwise_cons.mp hx).2 (List.pairwise_cons.mp hy).2 fun text => ?_
        have hall := h text
        rw [List.filter_cons, List.filter_cons] at hall
        split at hall
        · exact (List.cons.inj hall).2
        · exact hall
      rw [hrest]

theorem StablySorted.unique {run xs ys : List α} (hx : StablySorted run xs)
    (hy : StablySorted run ys) : xs = ys :=
  eq_of_filter_eq hx.ordered hy.ordered fun text => (hx.stable text).trans (hy.stable text).symm

theorem StablySorted.again {run sorted : List α} (h : StablySorted run sorted) :
    StablySorted sorted sorted := ⟨.refl sorted, h.ordered, fun _ => rfl⟩

/-! ### Run by run -/

/-- The second list brings the maximal runs of the first one in their places, each sorted stably. -/
def RunSorted (xs ys : List α) : Prop :=
  ∃ runs sorted : List (List α), TiedRuns runs ∧ runs.flatten = xs
    ∧ List.Forall₂ StablySorted runs sorted ∧ sorted.flatten = ys

theorem forall₂_sortByDiagram (runs : List (List α)) :
    List.Forall₂ StablySorted runs (runs.map sortByDiagram) := by
  rw [List.forall₂_map_right_iff, List.forall₂_same]
  exact fun run _ => stablySorted_sortByDiagram run

theorem runSorted_sortRuns (xs : List α) : RunSorted xs (sortRuns xs) :=
  ⟨xs.splitBy tied, (xs.splitBy tied).map sortByDiagram, tiedRuns_splitBy xs,
    List.flatten_splitBy tied xs, forall₂_sortByDiagram _, rfl⟩

namespace RunSorted

variable {xs ys zs : List α}

theorem unique (h : RunSorted xs ys) (h' : RunSorted xs zs) : ys = zs := by
  obtain ⟨runs, sorted, hruns, rfl, hsorted, rfl⟩ := h
  obtain ⟨runs', sorted', hruns', hflatten, hsorted', rfl⟩ := h'
  have hsame : runs' = runs := by
    rw [← hruns'.splitBy_flatten, hflatten, hruns.splitBy_flatten]
  rw [hsame] at hsorted'
  have hunique : Relator.RightUnique (StablySorted (α := α)) := fun _ _ _ hx hy => hx.unique hy
  rw [List.right_unique_forall₂' hunique hsorted hsorted']

theorem perm (h : RunSorted xs ys) : xs.Perm ys := by
  obtain ⟨runs, sorted, -, rfl, hsorted, rfl⟩ := h
  induction hsorted with
  | nil => exact .nil
  | cons hrun _ ih => exact hrun.perm.append ih

theorem again (h : RunSorted xs ys) : RunSorted ys ys := by
  obtain ⟨runs, sorted, hruns, -, hsorted, rfl⟩ := h
  have hruns' : TiedRuns sorted := hruns.perm (hsorted.imp fun _ _ hrun => hrun.perm)
  refine ⟨sorted, sorted, hruns', rfl, ?_, rfl⟩
  clear hruns hruns'
  induction hsorted with
  | nil => exact .nil
  | cons hrun _ ih => exact .cons hrun.again ih

end RunSorted

theorem sortRuns_sortRuns (xs : List α) : sortRuns (sortRuns xs) = sortRuns xs :=
  (runSorted_sortRuns _).unique (runSorted_sortRuns xs).again

/-! ### What ties -/

theorem tied_iff (a b : α) : tied a b = true
    ↔ (Linkage.metrics a).unusedWordCost = (Linkage.metrics b).unusedWordCost
      ∧ (∃ v, (Linkage.metrics a).disjunctCost.value = some v
        ∧ (Linkage.metrics b).disjunctCost.value = some v)
      ∧ (Linkage.metrics a).linkCost = (Linkage.metrics b).linkCost := by
  simp only [tied, Metrics.ties, Bool.and_eq_true, beq_iff_eq, Decimal.Binary64.equals_iff,
    and_assoc]

theorem TiedRuns.eq_singleton {runs : List (List α)} (h : TiedRuns runs) {run : List α}
    (hrun : run ∈ runs) {a : α} (ha : a ∈ run)
    (hnan : (Linkage.metrics a).disjunctCost.value = none) : run = [a] := by
  have hleft : ∀ b : α, LinkageCheck.tied b a ≠ true := by
    intro b htied
    obtain ⟨-, ⟨v, -, hv⟩, -⟩ := (tied_iff b a).mp htied
    rw [hnan] at hv
    exact absurd hv (Option.some_ne_none v).symm
  have htied := h.tied run hrun
  obtain ⟨before, behind, rfl⟩ := List.append_of_mem ha
  obtain ⟨-, hbehind, hbefore⟩ := List.pairwise_append.mp htied
  have hnil : before = [] := List.eq_nil_iff_forall_not_mem.mpr fun b hb =>
    hleft b (hbefore b hb a List.mem_cons_self)
  have hnil' : behind = [] := List.eq_nil_iff_forall_not_mem.mpr fun b hb => by
    have hb' := (List.pairwise_cons.mp hbehind).1 b hb
    rw [tied_comm] at hb'
    exact hleft b hb'
  rw [hnil, hnil', List.nil_append]

/-! ### Call by call -/

namespace Candidates

omit [Linkage α]

theorem answer_eq (c : Candidates α) (k : Nat) : c.answer k = c.answers[k]?.join := by
  induction k generalizing c with
  | zero => rw [answer, pull, List.head?_eq_getElem?]
  | succ k ih => rw [answer, ih, pull, List.getElem?_tail]

theorem of_answer {c : Candidates α} {xs : List α} (h : ∀ k, c.answer k = xs[k]?) :
    c.toList = xs ∧ c.StaysExhausted := by
  have hanswers : ∀ i (hi : i < c.answers.length), c.answers[i] = xs[i]? := by
    intro i hi
    rw [← h i, answer_eq, List.getElem?_eq_getElem hi]
    rfl
  have hexhausted : c.StaysExhausted := by
    refine List.pairwise_iff_getElem.mpr fun i j hi hj hij hnone => ?_
    rw [hanswers, List.getElem?_eq_none_iff] at hnone ⊢
    exact hnone.trans hij.le
  refine ⟨List.ext_getElem? fun k => ?_, hexhausted⟩
  rw [← answer_of_staysExhausted hexhausted, h]

end Candidates

namespace EqualCost

def after (s : EqualCost α) (k : Nat) : EqualCost α := (fun s => s.next.2)^[k] s

def answer (s : EqualCost α) (k : Nat) : Option α := (s.after k).next.1

theorem after_succ (s : EqualCost α) (k : Nat) : s.after (k + 1) = (s.after k).next.2 :=
  Function.iterate_succ_apply' _ k s

theorem pending_after {s : EqualCost α} (h : s.source.StaysExhausted) (k : Nat) :
    (s.after k).pending = s.pending.drop k ∧ (s.after k).source.StaysExhausted := by
  induction k with
  | zero => exact ⟨rfl, h⟩
  | succ k ih =>
    obtain ⟨-, htail, hsource⟩ := next_spec ih.2
    rw [after_succ, htail, ih.1, List.tail_drop]
    exact ⟨rfl, hsource⟩

theorem answer_eq {c : Candidates α} (h : c.StaysExhausted) (k : Nat) :
    (ofCandidates c).answer k = (sortRuns c.toList)[k]? := by
  obtain ⟨hpending, hsource⟩ := pending_after (s := ofCandidates c) h k
  rw [answer, (next_spec hsource).1, hpending, List.head?_drop]
  rfl

/-- The candidates are handed out run by run, each maximal run of one cost sorted stably by the
bytes of the diagrams, and this fixes their order; to order them once more changes nothing. -/
theorem answers_runSorted {c : Candidates α} (h : c.StaysExhausted) :
    ∃ ys, (∀ k, (ofCandidates c).answer k = ys[k]?) ∧ RunSorted c.toList ys
      ∧ (∀ zs, RunSorted c.toList zs → zs = ys) ∧ c.toList.Perm ys
      ∧ (∀ again : Candidates α, (∀ k, again.answer k = (ofCandidates c).answer k) →
        ∀ k, (ofCandidates again).answer k = ys[k]?)
      ∧ (∀ a b : α, tied a b = true
        ↔ (Linkage.metrics a).unusedWordCost = (Linkage.metrics b).unusedWordCost
          ∧ (∃ v, (Linkage.metrics a).disjunctCost.value = some v
            ∧ (Linkage.metrics b).disjunctCost.value = some v)
          ∧ (Linkage.metrics a).linkCost = (Linkage.metrics b).linkCost)
      ∧ ∀ runs : List (List α), TiedRuns runs → ∀ run ∈ runs, ∀ a ∈ run,
        (Linkage.metrics a).disjunctCost.value = none → run = [a] := by
  have hsorted := runSorted_sortRuns c.toList
  refine ⟨sortRuns c.toList, answer_eq h, hsorted, fun zs hzs => hzs.unique hsorted,
    hsorted.perm, fun again hagain k => ?_, tied_iff,
    fun runs hruns run hrun a ha hnan => hruns.eq_singleton hrun ha hnan⟩
  obtain ⟨hlist, hexhausted⟩ :=
    Candidates.of_answer fun k => (hagain k).trans (answer_eq h k)
  rw [answer_eq hexhausted, hlist, sortRuns_sortRuns]

def costing (cost : Decimal.Binary64) (word : String) : RecordedLinkage :=
  { guess word with metrics := ⟨0, cost, 0⟩ }

def negativeZero : Decimal.Binary64 := .ofParts true 0 0

/-- The two zeros make up one run, and each NaN is a run of its own. -/
def zerosAndNans : List RecordedLinkage :=
  [costing .zero "b~", costing negativeZero "a~", costing .nan "d~", costing .nan "c~"]

theorem splitBy_zerosAndNans : zerosAndNans.splitBy tied =
    [[costing .zero "b~", costing negativeZero "a~"], [costing .nan "d~"],
      [costing .nan "c~"]] := rfl

theorem answers_runSorted_zerosAndNans :
    (Candidates.ofList zerosAndNans).StaysExhausted
      ∧ ∀ k, (ofCandidates (.ofList zerosAndNans)).answer k =
        [costing negativeZero "a~", costing .zero "b~", costing .nan "d~",
          costing .nan "c~"][k]? := by
  have hexhausted := Candidates.staysExhausted_ofList zerosAndNans
  obtain ⟨ys, hanswers, -, hunique, -⟩ := answers_runSorted hexhausted
  have hgreater : diagramAtMost (costing .zero "b~") (costing negativeZero "a~") = false := by
    decide +kernel
  have hsorted : sortRuns zerosAndNans =
      [costing negativeZero "a~", costing .zero "b~", costing .nan "d~", costing .nan "c~"] := by
    rw [sortRuns, splitBy_zerosAndNans]
    simp [sortByDiagram, List.mergeSort, hgreater]
  rw [Candidates.toList_ofList] at hunique
  have hys : sortRuns zerosAndNans = ys := hunique _ (runSorted_sortRuns zerosAndNans)
  rw [← hys, hsorted] at hanswers
  exact ⟨hexhausted, hanswers⟩

end EqualCost

end LinkageCheck
