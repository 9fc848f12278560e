import LinkageCheck.Proofs.EqualCost.Sorting

/-! How far candidates of equal cost are pulled ahead: to the end of the run that is handed out, and
to the one linkage, or the end, behind it. -/

namespace LinkageCheck

variable {α : Type} [Linkage α]

/-! ### Maximal runs one behind the other -/

namespace TiedRuns

variable {run : List α} {before later : List (List α)}

theorem of_append (h : TiedRuns (before ++ later)) : TiedRuns later where
  nonempty run hrun := h.nonempty run (List.mem_append_right before hrun)
  tied run hrun := h.tied run (List.mem_append_right before hrun)
  untied := (List.isChain_append.mp h.untied).2.1

theorem flatten_cons_eq {first : α} {xs : List α} (h : TiedRuns (run :: later))
    (hflatten : (run :: later).flatten = first :: xs) :
    run = first :: xs.takeWhile (LinkageCheck.tied · first)
      ∧ later.flatten = xs.dropWhile (LinkageCheck.tied · first) := by
  have hsplit := h.splitBy_flatten
  rw [hflatten, splitBy_tied_cons] at hsplit
  obtain ⟨hrun, hlater⟩ := List.cons.inj hsplit
  rw [← hrun, ← hlater, List.flatten_splitBy]
  exact ⟨rfl, rfl⟩

theorem flatten_ne_nil (h : TiedRuns (run :: later)) : (run :: later).flatten ≠ [] := by
  rw [List.flatten_cons]
  exact List.append_ne_nil_of_left_ne_nil (h.nonempty run List.mem_cons_self) _

theorem sortRuns_flatten {runs : List (List α)} (h : TiedRuns runs) :
    sortRuns runs.flatten = runs.flatMap sortByDiagram := by
  rw [sortRuns, h.splitBy_flatten]

theorem length_flatMap_sortByDiagram (runs : List (List α)) :
    (runs.flatMap sortByDiagram).length = runs.flatten.length := by
  induction runs with
  | nil => rfl
  | cons run runs ih =>
    have hrun : (sortByDiagram run).length = run.length := List.length_mergeSort run
    rw [List.flatMap_cons, List.length_append, ih, hrun, List.flatten_cons, List.length_append]

end TiedRuns

/-! ### A run that is handed out -/

namespace EqualCost

/-- Of this run so many linkages are handed out, and the runs behind it are still to come. -/
structure InRun (c : Candidates α) (run : List α) (later : List (List α)) (i : Nat)
    (s : EqualCost α) : Prop where
  left : s.run.length + i = run.length
  behind : s.held.toList ++ s.source.toList = later.flatten
  drawn : Drawn c.due s.held s.source
  exhausted : s.source.StaysExhausted

variable {c : Candidates α} {run : List α} {later : List (List α)} {i : Nat} {s : EqualCost α}

theorem inRun_ofFirst {first : α} {source : Candidates α} (h : source.StaysExhausted)
    (hdue : source.due = c.due) (hruns : TiedRuns (run :: later))
    (hflatten : (run :: later).flatten = first :: source.toList) :
    InRun c run later 0 (ofFirst first source) := by
  obtain ⟨hrun, hlater⟩ := hruns.flatten_cons_eq hflatten
  obtain ⟨hfound, hbehind, hexhausted⟩ :=
    RunEnd.find_spec (Linkage.metrics first) source.answers source.pulls h
  refine ⟨?_, hbehind.trans hlater.symm, hdue ▸ drawn_ofFirst first h, hexhausted⟩
  rw [ofFirst, sortByDiagram, List.length_mergeSort, hfound, hrun]
  rfl

omit [Linkage α] in
theorem InRun.tail {a : α} {rest : List α} (h : InRun c run later i s) (hrun : s.run = a :: rest) :
    InRun c run later (i + 1) { s with run := rest } := by
  refine ⟨?_, h.behind, h.drawn, h.exhausted⟩
  have hleft := h.left
  rw [hrun, List.length_cons] at hleft
  simp only
  omega

theorem InRun.next (h : InRun c run later i s) (hi : i < run.length) :
    InRun c run later (i + 1) s.next.2 := by
  have hleft := h.left
  have hstep := step_next s
  generalize s.next.1 = answer at hstep
  generalize s.next.2 = s' at hstep
  cases hstep with
  | handOut => exact h.tail rfl
  | held => simp only [List.length_nil] at hleft; omega
  | pulled => simp only [List.length_nil] at hleft; omega
  | ended => simp only [List.length_nil] at hleft; omega

theorem inRun_next (hrun : s.run = []) (hdue : s.source.due = c.due)
    (hs : s.source.StaysExhausted) (hruns : TiedRuns (run :: later))
    (hbehind : (run :: later).flatten = s.held.toList ++ s.source.toList) :
    InRun c run later 1 s.next.2 := by
  have hstep := step_next s
  generalize s.next.1 = answer at hstep
  generalize s.next.2 = s' at hstep
  cases hstep with
  | handOut => cases hrun
  | held hfirst => exact (inRun_ofFirst hs hdue hruns hbehind).tail hfirst
  | pulled hlist hfirst =>
    have hsource := (Candidates.pull_spec hs).2.2
    refine (inRun_ofFirst hsource ((Candidates.due_pull hlist).trans hdue) hruns ?_).tail hfirst
    exact hbehind.trans hlist
  | ended hlist => exact absurd (hbehind.trans hlist) hruns.flatten_ne_nil

theorem InRun.next_run {following : List α} (h : InRun c run (following :: later) run.length s)
    (hruns : TiedRuns (following :: later)) : InRun c following later 1 s.next.2 := by
  have hrun : s.run = [] := by
    have hleft := h.left
    exact List.length_eq_zero_iff.mp (by omega)
  have hdue : s.source.due = c.due := by
    have hne := hruns.flatten_ne_nil
    have hdrawn := h.drawn
    rw [← h.behind] at hne
    generalize s.held = held at hne hdrawn
    generalize s.source = source at hne hdrawn
    cases hdrawn with
    | held hdue => exact hdue
    | last hlist => exact absurd hlist hne
  exact inRun_next hrun hdue h.exhausted hruns h.behind.symm

theorem InRun.after {k : Nat} (h : InRun c run later 1 (s.after k)) (hi : i < run.length) :
    InRun c run later (i + 1) (s.after (k + i)) := by
  induction i with
  | zero => exact h
  | succ i ih =>
    rw [← Nat.add_assoc, after_succ]
    exact (ih (Nat.lt_of_succ_lt hi)).next hi

theorem inRun_after (h : c.StaysExhausted) {before : List (List α)}
    (hruns : TiedRuns (before ++ run :: later))
    (hlist : (before ++ run :: later).flatten = c.toList) :
    InRun c run later 1 ((ofCandidates c).after (before.flatten.length + 1)) := by
  induction before using List.reverseRecOn generalizing run later with
  | nil => exact inRun_next rfl rfl h hruns hlist
  | append_singleton before previous ih =>
    rw [List.append_assoc, List.singleton_append] at hruns hlist
    have hpos : 0 < previous.length :=
      List.length_pos_iff.mpr (hruns.of_append.nonempty previous List.mem_cons_self)
    have hlast := (ih hruns hlist).after (Nat.sub_one_lt hpos.ne')
    rw [Nat.sub_add_cancel hpos] at hlast
    have hcalls : (before ++ [previous]).flatten.length
        = before.flatten.length + 1 + (previous.length - 1) := by
      rw [List.flatten_concat, List.length_append]
      omega
    have hbehind : TiedRuns ([previous] ++ run :: later) := hruns.of_append
    rw [hcalls, after_succ]
    exact hlast.next_run hbehind.of_append

omit [Linkage α] in
theorem InRun.pulls_add (h : InRun c run later i s) :
    s.source.pulls + later.flatten.length = c.due + 1 := by
  have hdrawn := h.drawn
  have hbehind := h.behind
  generalize s.held = held at hdrawn hbehind
  generalize s.source = source at hdrawn hbehind
  rw [← hbehind]
  cases hdrawn with
  | held hdue =>
    rw [← hdue, Candidates.due, List.length_append]
    simp only [Option.toList_some, List.length_singleton]
    omega
  | last hlist hpulls =>
    rw [hlist, hpulls]
    rfl

theorem answer_mem_run (h : c.StaysExhausted) {before : List (List α)}
    (hruns : TiedRuns (before ++ run :: later))
    (hlist : (before ++ run :: later).flatten = c.toList) (hi : i < run.length) :
    ∃ x ∈ run, (ofCandidates c).answer (before.flatten.length + i) = some x := by
  have hlength : (sortByDiagram run).length = run.length := List.length_mergeSort run
  have hplace : i < (sortByDiagram run).length := hlength ▸ hi
  refine ⟨(sortByDiagram run)[i], List.mem_mergeSort.mp (List.getElem_mem hplace), ?_⟩
  rw [answer_eq h, ← hlist, hruns.sortRuns_flatten, List.flatMap_append, List.flatMap_cons,
    ← TiedRuns.length_flatMap_sortByDiagram before,
    List.getElem?_append_right (Nat.le_add_right _ _), Nat.add_sub_cancel_left,
    List.getElem?_append_left hplace, List.getElem?_eq_getElem hplace]

theorem pulls_after_last (h : c.StaysExhausted) {k : Nat} (hk : c.toList.length ≤ k) :
    (ofCandidates c).answer k = none
      ∧ ((ofCandidates c).after (k + 1)).source.pulls
        = ((ofCandidates c).after k).source.pulls + 1 := by
  have hnone : (ofCandidates c).answer k = none := by
    rw [answer_eq h, List.getElem?_eq_none_iff, ← (runSorted_sortRuns c.toList).perm.length_eq]
    exact hk
  refine ⟨hnone, ?_⟩
  have hstep := step_next ((ofCandidates c).after k)
  rw [after_succ]
  rw [answer] at hnone
  rw [hnone] at hstep
  exact hstep.pulls_of_none

/-- While a run is handed out, the source was pulled once for each linkage up to the end of the run
and once more to see that end; only the call that begins a run pulls. -/
theorem pulls_within_run (h : c.StaysExhausted) {runs : List (List α)} (hruns : TiedRuns runs)
    (hlist : runs.flatten = c.toList) :
    let pulls := fun k => ((ofCandidates c).after k).source.pulls
    (∀ before run later, runs = before ++ run :: later → ∀ i < run.length,
      let start := before.flatten.length
      (∃ x ∈ run, (ofCandidates c).answer (start + i) = some x)
        ∧ pulls (start + i + 1) = c.pulls + (start + run.length + 1)
        ∧ (0 < i → pulls (start + i + 1) = pulls (start + i)))
      ∧ ∀ k, c.toList.length ≤ k →
        (ofCandidates c).answer k = none ∧ pulls (k + 1) = pulls k + 1 := by
  intro pulls
  refine ⟨?_, fun k hk => pulls_after_last h hk⟩
  rintro before run later rfl i hi start
  have hlength : c.due = c.pulls + (start + run.length + later.flatten.length) := by
    rw [Candidates.due, ← hlist, List.flatten_append, List.flatten_cons, List.length_append,
      List.length_append, Nat.add_assoc]
  have hpulls : ∀ i < run.length, pulls (start + i + 1) = c.pulls + (start + run.length + 1) := by
    intro i hi
    have hrun := (inRun_after h hruns hlist).after hi
    have hadd := hrun.pulls_add
    rw [Nat.add_right_comm] at hadd
    simp only [pulls, start] at hlength ⊢
    omega
  refine ⟨answer_mem_run h hruns hlist hi, hpulls i hi, fun hpos => ?_⟩
  obtain ⟨i, rfl⟩ := Nat.exists_eq_add_of_le' hpos
  exact (hpulls (i + 1) hi).trans (hpulls i (Nat.lt_of_succ_lt hi)).symm

theorem pulls_within_run_zerosAndNans :
    let c := Candidates.ofList zerosAndNans
    let runs := zerosAndNans.splitBy tied
    let pulls := fun k => ((ofCandidates c).after k).source.pulls
    c.StaysExhausted ∧ TiedRuns runs ∧ runs.flatten = c.toList
      ∧ pulls 1 = 3 ∧ pulls 2 = pulls 1 ∧ pulls 3 = 4 ∧ pulls 4 = 5 ∧ pulls 5 = pulls 4 + 1
      ∧ (ofCandidates c).answer 4 = none := by
  intro c runs pulls
  have hexhausted : c.StaysExhausted := Candidates.staysExhausted_ofList zerosAndNans
  have hruns : TiedRuns runs := tiedRuns_splitBy zerosAndNans
  have hlist : runs.flatten = c.toList := by
    rw [List.flatten_splitBy, Candidates.toList_ofList]
  obtain ⟨hwithin, hbehind⟩ := pulls_within_run hexhausted hruns hlist
  obtain ⟨-, hfirst, -⟩ := hwithin [] _ _ splitBy_zerosAndNans 0 (by decide)
  obtain ⟨-, -, hsecond⟩ := hwithin [] _ _ splitBy_zerosAndNans 1 (by decide)
  obtain ⟨-, hthird, -⟩ := hwithin [_] _ _ splitBy_zerosAndNans 0 (by decide)
  obtain ⟨-, hfourth, -⟩ := hwithin [_, _] _ _ splitBy_zerosAndNans 0 (by decide)
  obtain ⟨hnone, hlast⟩ := hbehind 4 (by decide)
  exact ⟨hexhausted, hruns, hlist, hfirst, hsecond Nat.one_pos, hthird, hfourth, hlast, hnone⟩

end EqualCost

end LinkageCheck
