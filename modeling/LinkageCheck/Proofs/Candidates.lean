import LinkageCheck.Cursor
import Mathlib.Data.List.SplitBy
import Mathlib.Data.List.TakeWhile

/-! The linkages that a sequence of candidates still brings, as a list: as the engine offers them,
or run by run sorted by diagram. A pull takes the head of that list and leaves its tail. -/

namespace LinkageCheck

open Decimal (Binary64)

variable {α : Type} [Linkage α]

/-! ### Linkages of the same cost -/

theorem Decimal.Binary64.equals_comm (x y : Binary64) : x.equals y = y.equals x := by
  cases x <;> cases y <;> simp only [equals]
  · exact Bool.beq_comm
  · grind

theorem Decimal.Binary64.equals_trans {x y z : Binary64} (h : x.equals y = true)
    (h' : y.equals z = true) : x.equals z = true := by
  cases x <;> cases y <;> cases z <;> simp only [equals, reduceCtorEq] at h h' ⊢ <;> grind

theorem Metrics.ties_comm (a b : Metrics) : a.ties b = b.ties a := by
  simp only [ties, Binary64.equals_comm a.disjunctCost, Bool.beq_comm (a := a.unusedWordCost),
    Bool.beq_comm (a := a.linkCost)]

theorem Metrics.ties_trans {a b c : Metrics} (h : a.ties b = true) (h' : b.ties c = true) :
    a.ties c = true := by
  simp only [ties, Bool.and_eq_true, beq_iff_eq] at h h' ⊢
  exact ⟨⟨h.1.1.trans h'.1.1, Binary64.equals_trans h.1.2 h'.1.2⟩, h.2.trans h'.2⟩

def tied (a b : α) : Bool := (Linkage.metrics a).ties (Linkage.metrics b)

/-- The candidates with every maximal run of neighbours of the same cost sorted by diagram. -/
def sortRuns (linkages : List α) : List α := (linkages.splitBy tied).flatMap sortByDiagram

theorem tied_comm (a b : α) : tied a b = tied b a := Metrics.ties_comm _ _

theorem tied_trans {a b c : α} (h : tied a b = true) (h' : tied b c = true) : tied a c = true :=
  Metrics.ties_trans h h'

theorem tied_of_mem_takeWhile {a x : α} {xs : List α} (h : x ∈ xs.takeWhile (tied · a)) :
    tied x a = true := List.mem_takeWhile_imp (p := (tied · a)) h

theorem isChain_tied_run (a : α) (xs : List α) :
    (a :: xs.takeWhile (tied · a)).IsChain fun x y => tied x y = true := by
  apply List.Pairwise.isChain
  refine List.pairwise_cons.mpr ⟨fun x hx => ?_, ?_⟩
  · rw [tied_comm]
    exact tied_of_mem_takeWhile hx
  · apply List.pairwise_of_forall_mem_list
    intro x hx y hy
    have hy' : tied a y = true := (tied_comm a y).trans (tied_of_mem_takeWhile hy)
    exact tied_trans (tied_of_mem_takeWhile hx) hy'

theorem splitBy_tied_cons (a : α) (xs : List α) :
    (a :: xs).splitBy tied =
      (a :: xs.takeWhile (tied · a)) :: (xs.dropWhile (tied · a)).splitBy tied := by
  have hrun := List.splitBy_of_isChain (List.cons_ne_nil _ _) (isChain_tied_run a xs)
  have hsplit : a :: xs = (a :: xs.takeWhile (tied · a)) ++ xs.dropWhile (tied · a) := by
    rw [List.cons_append, List.takeWhile_append_dropWhile]
  rcases hrest : xs.dropWhile (tied · a) with _ | ⟨b, rest⟩
  · rw [hsplit, hrest, List.append_nil, hrun, List.splitBy_nil]
  · have hb : tied b a = false := by
      have := List.head?_dropWhile_not (tied · a) xs
      simpa [hrest] using this
    have hlast : ∀ x ∈ (a :: xs.takeWhile (tied · a)).getLast?, tied x b = false := by
      intro x hx
      refine Bool.eq_false_iff.mpr fun hxb => ?_
      have hba : tied b a = true := by
        rcases List.mem_cons.mp (List.mem_of_mem_getLast? hx) with rfl | hx
        · rw [tied_comm]
          exact hxb
        · exact tied_trans ((tied_comm b x).trans hxb) (tied_of_mem_takeWhile hx)
      exact Bool.false_ne_true (hb.symm.trans hba)
    rw [hsplit, hrest, List.splitBy_append_cons rest hlast, hrun, List.singleton_append]

theorem sortRuns_cons (a : α) (xs : List α) :
    sortRuns (a :: xs) = sortByDiagram (a :: xs.takeWhile (tied · a))
      ++ sortRuns (xs.dropWhile (tied · a)) := by
  rw [sortRuns, splitBy_tied_cons, List.flatMap_cons, sortRuns]

/-! ### What is still to come -/

namespace Candidates

omit [Linkage α]

/-- Once a pull has come back empty, all later ones do. -/
def StaysExhausted (c : Candidates α) : Prop :=
  c.answers.Pairwise fun earlier later => earlier = none → later = none

theorem staysExhausted_ofList (linkages : List α) : (ofList linkages).StaysExhausted := by
  refine List.pairwise_map.mpr (List.pairwise_of_forall fun x y h => ?_)
  exact absurd h (Option.some_ne_none x)

theorem toList_ofList (linkages : List α) : (ofList linkages).toList = linkages := by
  induction linkages with
  | nil => rfl
  | cons a linkages ih =>
    change a :: (ofList linkages).toList = _
    rw [ih]

theorem upToEmpty_of_forall_none {answers : List (Option α)} (h : ∀ a ∈ answers, a = none) :
    upToEmpty answers = [] := by
  rcases answers with _ | ⟨a, answers⟩
  · rfl
  · rw [h a List.mem_cons_self]
    rfl

theorem pull_spec {c : Candidates α} (hc : c.StaysExhausted) :
    c.pull.1 = c.toList.head? ∧ c.pull.2.toList = c.toList.tail ∧ c.pull.2.StaysExhausted := by
  rcases c with ⟨_ | ⟨_ | a, answers⟩, pulls⟩
  · exact ⟨rfl, rfl, List.Pairwise.nil⟩
  · have hrest := List.pairwise_cons.mp hc
    have hempty := upToEmpty_of_forall_none fun a ha => hrest.1 a ha rfl
    exact ⟨rfl, hempty, hrest.2⟩
  · exact ⟨rfl, rfl, (List.pairwise_cons.mp hc).2⟩

end Candidates

theorem RunEnd.find_spec (metrics : Metrics) (answers : List (Option α)) (pulls : Nat)
    (h : (Candidates.mk answers pulls).StaysExhausted) :
    let ties := fun a : α => (Linkage.metrics a).ties metrics
    let found := RunEnd.find metrics answers pulls
    found.run = (Candidates.upToEmpty answers).takeWhile ties
      ∧ found.held.toList ++ found.source.toList = (Candidates.upToEmpty answers).dropWhile ties
      ∧ found.source.StaysExhausted := by
  induction answers generalizing pulls with
  | nil => exact ⟨rfl, rfl, List.Pairwise.nil⟩
  | cons answer answers ih =>
    have hrest := List.pairwise_cons.mp h
    cases answer with
    | none =>
      have hempty := Candidates.upToEmpty_of_forall_none fun a ha => hrest.1 a ha rfl
      exact ⟨rfl, hempty, hrest.2⟩
    | some a =>
      obtain ⟨hrun, hheld, hsource⟩ := ih (pulls + 1) hrest.2
      by_cases ha : (Linkage.metrics a).ties metrics
      · simp only [RunEnd.find, ha, if_true, Candidates.upToEmpty, List.takeWhile_cons,
          List.dropWhile_cons]
        exact ⟨congrArg (a :: ·) hrun, hheld, hsource⟩
      · simp only [RunEnd.find, ha, Candidates.upToEmpty, List.takeWhile_cons,
          List.dropWhile_cons, Bool.false_eq_true, if_false]
        exact ⟨trivial, rfl, hrest.2⟩

namespace EqualCost

/-- The linkages to come: what is left of the current run, then the sorted runs behind it. -/
def pending (s : EqualCost α) : List α := s.run ++ sortRuns (s.held.toList ++ s.source.toList)

theorem sortByDiagram_ne_nil (a : α) (xs : List α) : sortByDiagram (a :: xs) ≠ [] := by
  have hlength : (sortByDiagram (a :: xs)).length = xs.length + 1 := List.length_mergeSort _
  intro h
  rw [h] at hlength
  exact absurd hlength (Nat.succ_ne_zero _).symm

theorem ofFirst_spec (first : α) {source : Candidates α} (h : source.StaysExhausted) :
    (ofFirst first source).pending = sortRuns (first :: source.toList)
      ∧ (ofFirst first source).source.StaysExhausted ∧ (ofFirst first source).run ≠ [] := by
  obtain ⟨hrun, hheld, hsource⟩ :=
    RunEnd.find_spec (Linkage.metrics first) source.answers source.pulls h
  refine ⟨?_, hsource, sortByDiagram_ne_nil _ _⟩
  simp only [pending, ofFirst]
  rw [hheld, hrun, sortRuns_cons]
  rfl

theorem fill_spec {s : EqualCost α} (h : s.source.StaysExhausted) (hrun : s.run = []) :
    s.fill.pending = s.pending ∧ s.fill.source.StaysExhausted
      ∧ (s.fill.run = [] → s.fill.pending = []) := by
  rcases s with ⟨source, held, run⟩
  obtain rfl : run = [] := hrun
  rcases held with _ | first
  · -- nothing is held, so the first linkage of the next run is still to be pulled
    obtain ⟨hpull, hrest, hsource⟩ := Candidates.pull_spec h
    rcases hlist : source.toList with _ | ⟨first, rest⟩
    · have hnone : source.pull.1 = none := by
        rw [hpull, hlist]
        rfl
      have hfill : (⟨source, none, []⟩ : EqualCost α).fill = ⟨source.pull.2, none, []⟩ := by
        rw [fill, ← Prod.eta source.pull, hnone]
      have hempty : (⟨source.pull.2, none, []⟩ : EqualCost α).pending = [] := by
        rw [pending, hrest, hlist]
        rfl
      have hbefore : (⟨source, none, []⟩ : EqualCost α).pending = [] := by
        rw [pending, hlist]
        rfl
      rw [hfill]
      exact ⟨hempty.trans hbefore.symm, hsource, fun _ => hempty⟩
    · have hsome : source.pull.1 = some first := by
        rw [hpull, hlist]
        rfl
      have hfill : (⟨source, none, []⟩ : EqualCost α).fill = ofFirst first source.pull.2 := by
        rw [fill, ← Prod.eta source.pull, hsome]
      obtain ⟨hpending, hexhausted, hne⟩ := ofFirst_spec first hsource
      rw [hfill, hpending, hrest, hlist]
      refine ⟨?_, hexhausted, fun hnil => absurd hnil hne⟩
      rw [pending, hlist]
      rfl
  · obtain ⟨hpending, hexhausted, hne⟩ := ofFirst_spec first h
    exact ⟨hpending, hexhausted, fun hnil => absurd hnil hne⟩

theorem head_tail_run {s : EqualCost α} (h : s.run = [] → s.pending = []) :
    s.run.head? = s.pending.head? ∧ { s with run := s.run.tail }.pending = s.pending.tail := by
  rcases hrun : s.run with _ | ⟨a, run⟩
  · have hs : s = { s with run := [].tail } := by
      rw [List.tail_nil, ← hrun]
    rw [← hs, h hrun]
    exact ⟨rfl, rfl⟩
  · simp only [pending, hrun]
    exact ⟨rfl, rfl⟩

theorem next_spec {s : EqualCost α} (h : s.source.StaysExhausted) :
    s.next.1 = s.pending.head? ∧ s.next.2.pending = s.pending.tail
      ∧ s.next.2.source.StaysExhausted := by
  rcases hrun : s.run with _ | ⟨a, run⟩
  · obtain ⟨hpending, hsource, hempty⟩ := fill_spec h hrun
    have hhead := head_tail_run hempty
    simp only [next, hrun, List.isEmpty_nil, if_true]
    rw [← hpending]
    exact ⟨hhead.1, hhead.2, hsource⟩
  · have hhead := head_tail_run (s := s) fun hnil => absurd (hrun.symm.trans hnil) (by simp)
    simp only [next, hrun, List.isEmpty_cons, Bool.false_eq_true, if_false]
    rw [hrun] at hhead
    exact ⟨hhead.1, hhead.2, h⟩

end EqualCost

namespace CandidateOrder

/-- The full list of candidates as this order shows them. -/
def arrange : CandidateOrder → List α → List α
  | engine, linkages => linkages
  | equalCost, linkages => sortRuns linkages

theorem mem_of_mem_arrange {order : CandidateOrder} {x : α} {xs : List α}
    (h : x ∈ order.arrange xs) : x ∈ xs := by
  cases order with
  | engine => exact h
  | equalCost =>
    obtain ⟨run, hrun, hx⟩ := List.mem_flatMap.mp h
    rw [sortByDiagram, List.mem_mergeSort] at hx
    rw [← List.flatten_splitBy tied xs]
    exact List.mem_flatten.mpr ⟨run, hrun, hx⟩

end CandidateOrder

namespace Dictionary

def candidates (d : Dictionary α) (order : CandidateOrder) (o : Options) (text : String) : List α :=
  match d.parse text o with
  | .ok c => order.arrange c.toList
  | .error _ => []

theorem candidates_of_parse {d : Dictionary α} {o : Options} {text : String} {c : Candidates α}
    (h : d.parse text o = .ok c) (order : CandidateOrder) :
    d.candidates order o text = order.arrange c.toList := by
  rw [candidates, h]

end Dictionary

namespace CandidateSequence

def source : CandidateSequence α → Candidates α
  | engine source => source
  | equalCost sequence => sequence.source

def pending : CandidateSequence α → List α
  | engine source => source.toList
  | equalCost sequence => sequence.pending

theorem pending_ofCandidates (c : Candidates α) (order : CandidateOrder) :
    (ofCandidates c order).pending = order.arrange c.toList := by
  cases order <;> rfl

omit [Linkage α] in
theorem source_ofCandidates (c : Candidates α) (order : CandidateOrder) :
    (ofCandidates c order).source = c := by
  cases order <;> rfl

theorem next_spec {s : CandidateSequence α} (h : s.source.StaysExhausted) :
    s.next.1 = s.pending.head? ∧ s.next.2.pending = s.pending.tail
      ∧ s.next.2.source.StaysExhausted := by
  cases s with
  | engine source => exact Candidates.pull_spec h
  | equalCost sequence => exact EqualCost.next_spec h

end CandidateSequence

end LinkageCheck
