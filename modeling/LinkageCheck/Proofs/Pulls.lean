import LinkageCheck.Proofs.Place

/-! How often a cursor pulls the sequence of its sentence. In the order of the engine the pull that
comes back empty is the last one. Where tied candidates are sorted, the end of the last run takes
one empty pull, and a second one is made when that run has been handed out. -/

namespace LinkageCheck

variable {α : Type}

namespace Candidates

def answer (c : Candidates α) : Nat → Option α
  | 0 => c.pull.1
  | k + 1 => c.pull.2.answer k

theorem answer_of_staysExhausted {c : Candidates α} (hc : c.StaysExhausted) (k : Nat) :
    c.answer k = c.toList[k]? := by
  induction k generalizing c with
  | zero => rw [answer, (pull_spec hc).1, List.head?_eq_getElem?]
  | succ k ih =>
    obtain ⟨-, hlist, hexhausted⟩ := pull_spec hc
    rw [answer, ih hexhausted, hlist, List.getElem?_tail]

/-- One of the first `k` pulls came back empty. -/
def RanDry (c : Candidates α) (k : Nat) : Prop := ∃ i < k, c.answer i = none

/-- The number of pulls before the one that is the first to come back empty. -/
def due (c : Candidates α) : Nat := c.pulls + c.toList.length

theorem pulls_le_due (c : Candidates α) : c.pulls ≤ c.due := Nat.le_add_right _ _

theorem pull_cases (c : Candidates α) :
    (c.toList = [] ∧ c.pull.1 = none)
      ∨ ∃ a, c.toList = a :: c.pull.2.toList ∧ c.pull.1 = some a := by
  rcases c with ⟨_ | ⟨_ | a, answers⟩, pulls⟩
  · exact .inl ⟨rfl, rfl⟩
  · exact .inl ⟨rfl, rfl⟩
  · exact .inr ⟨a, rfl, rfl⟩

theorem due_pull {c : Candidates α} {a : α} (h : c.toList = a :: c.pull.2.toList) :
    c.pull.2.due = c.due := by
  have hpulls : c.pull.2.pulls = c.pulls + 1 := rfl
  rw [due, due, h, hpulls, List.length_cons]
  omega

theorem ranDry_succ (c : Candidates α) (k : Nat) :
    c.RanDry (k + 1) ↔ c.pull.1 = none ∨ c.pull.2.RanDry k := by
  constructor
  · rintro ⟨_ | i, hi, hnone⟩
    · exact .inl hnone
    · exact .inr ⟨i, Nat.lt_of_succ_lt_succ hi, hnone⟩
  · rintro (hnone | ⟨i, hi, hnone⟩)
    · exact ⟨0, Nat.zero_lt_succ k, hnone⟩
    · exact ⟨i + 1, Nat.succ_lt_succ hi, hnone⟩

theorem ranDry_iff (c : Candidates α) (k : Nat) : c.RanDry k ↔ c.toList.length < k := by
  induction k generalizing c with
  | zero => simp [RanDry]
  | succ k ih =>
    rw [ranDry_succ, ih]
    rcases c.pull_cases with ⟨hlist, hnone⟩ | ⟨a, hlist, hsome⟩
    · simp [hlist, hnone]
    · simp [hlist, hsome]

end Candidates

variable [Linkage α]

/-! ### Tied candidates sorted -/

namespace EqualCost

/-- How far the source is pulled while a run is handed out: a linkage behind the run is held, or
the run is the last one and one pull came back empty. -/
inductive Drawn (due : Nat) : Option α → Candidates α → Prop
  | held {a : α} {source : Candidates α} (h : source.due = due) : Drawn due (some a) source
  | last {source : Candidates α} (hlist : source.toList = []) (hpulls : source.pulls = due + 1) :
    Drawn due none source

end EqualCost

theorem RunEnd.drawn_find (metrics : Metrics) (answers : List (Option α)) (pulls : Nat)
    (h : (Candidates.mk answers pulls).StaysExhausted) :
    EqualCost.Drawn (Candidates.mk answers pulls).due (find metrics answers pulls).held
      (find metrics answers pulls).source := by
  induction answers generalizing pulls with
  | nil => exact .last rfl rfl
  | cons answer answers ih =>
    have hrest := List.pairwise_cons.mp h
    cases answer with
    | none =>
      have hempty := Candidates.upToEmpty_of_forall_none fun a ha => hrest.1 a ha rfl
      exact .last hempty rfl
    | some a =>
      have hdue : (Candidates.mk answers (pulls + 1)).due =
          (Candidates.mk (some a :: answers) pulls).due :=
        Candidates.due_pull (c := ⟨some a :: answers, pulls⟩) rfl
      by_cases ha : (Linkage.metrics a).ties metrics
      · simp only [find, ha, if_true]
        rw [← hdue]
        exact ih (pulls + 1) hrest.2
      · simp only [find, ha, Bool.false_eq_true, if_false]
        exact .held hdue

theorem RunEnd.le_pulls_find (metrics : Metrics) (answers : List (Option α)) (pulls : Nat) :
    pulls ≤ (find metrics answers pulls).source.pulls := by
  fun_induction find metrics answers pulls with
  | case1 pulls => exact Nat.le_succ pulls
  | case2 answers pulls => exact Nat.le_succ pulls
  | case3 a answers pulls hties later ih => exact (Nat.le_succ pulls).trans ih
  | case4 a answers pulls hties => exact Nat.le_succ pulls

namespace EqualCost

theorem drawn_ofFirst (first : α) {source : Candidates α} (h : source.StaysExhausted) :
    Drawn source.due (ofFirst first source).held (ofFirst first source).source :=
  RunEnd.drawn_find (Linkage.metrics first) source.answers source.pulls h

inductive Step : EqualCost α → Option α → EqualCost α → Prop
  | handOut {source : Candidates α} {held : Option α} {a : α} {run : List α} :
    Step ⟨source, held, a :: run⟩ (some a) ⟨source, held, run⟩
  | held {source : Candidates α} {first a : α} {run : List α}
      (hrun : (ofFirst first source).run = a :: run) :
    Step ⟨source, some first, []⟩ (some a) { ofFirst first source with run }
  | pulled {source : Candidates α} {first a : α} {run : List α}
      (hlist : source.toList = first :: source.pull.2.toList)
      (hrun : (ofFirst first source.pull.2).run = a :: run) :
    Step ⟨source, none, []⟩ (some a) { ofFirst first source.pull.2 with run }
  | ended {source : Candidates α} (hlist : source.toList = []) :
    Step ⟨source, none, []⟩ none ⟨source.pull.2, none, []⟩

theorem step_next (s : EqualCost α) : Step s s.next.1 s.next.2 := by
  have hfirst : ∀ (first : α) (source : Candidates α),
      ∃ a run, (ofFirst first source).run = a :: run := fun first source =>
    List.exists_cons_of_ne_nil (sortByDiagram_ne_nil first _)
  rcases s with ⟨source, held, _ | ⟨a, run⟩⟩
  · rcases held with _ | first
    · rcases source.pull_cases with ⟨hlist, hnone⟩ | ⟨first, hlist, hsome⟩
      · have hfill : (⟨source, none, []⟩ : EqualCost α).fill = ⟨source.pull.2, none, []⟩ := by
          rw [fill, ← Prod.eta source.pull, hnone]
        simp only [next, List.isEmpty_nil, if_true, hfill]
        exact .ended hlist
      · have hfill : (⟨source, none, []⟩ : EqualCost α).fill = ofFirst first source.pull.2 := by
          rw [fill, ← Prod.eta source.pull, hsome]
        obtain ⟨a, run, hrun⟩ := hfirst first source.pull.2
        simp only [next, List.isEmpty_nil, if_true, hfill, hrun, List.head?_cons, List.tail_cons]
        exact .pulled hlist hrun
    · obtain ⟨a, run, hrun⟩ := hfirst first source
      simp only [next, List.isEmpty_nil, if_true, fill, hrun, List.head?_cons, List.tail_cons]
      exact .held hrun
  · exact .handOut

namespace Step

variable {s s' : EqualCost α} {answer : Option α}

theorem le_pulls (h : Step s answer s') : s.source.pulls ≤ s'.source.pulls := by
  cases h with
  | handOut => exact le_rfl
  | held hrun => exact RunEnd.le_pulls_find _ _ _
  | pulled hlist hrun => exact (Nat.le_succ _).trans (RunEnd.le_pulls_find _ _ _)
  | ended hlist => exact Nat.le_succ _

theorem pulls_of_none (h : Step s none s') : s'.source.pulls = s.source.pulls + 1 := by
  cases h with
  | ended => rfl

theorem drawn {due : Nat} (h : Step s answer s') (hsource : s.source.StaysExhausted)
    (hdrawn : Drawn due s.held s.source) :
    (answer.isSome = true ∧ Drawn due s'.held s'.source)
      ∨ (answer = none ∧ s'.source.pulls = due + 2) := by
  cases h with
  | handOut => exact .inl ⟨rfl, hdrawn⟩
  | @held source first a run hrun =>
    cases hdrawn with
    | held hdue => exact .inl ⟨rfl, hdue ▸ drawn_ofFirst first hsource⟩
  | pulled hlist hrun =>
    cases hdrawn with
    | last hempty hpulls => rw [hempty] at hlist; cases hlist
  | ended hlist =>
    cases hdrawn with
    | last hempty hpulls => exact .inr ⟨rfl, congrArg (· + 1) hpulls⟩

theorem drawn_first {c : Candidates α} (h : Step (ofCandidates c) answer s')
    (hc : c.StaysExhausted) :
    (answer.isSome = true ∧ 0 < c.toList.length ∧ Drawn c.due s'.held s'.source)
      ∨ (answer = none ∧ c.toList.length = 0 ∧ s'.source.pulls = c.due + 1) := by
  cases h with
  | @pulled source first a run hlist hrun =>
    have hdrawn := drawn_ofFirst first (Candidates.pull_spec hc).2.2
    rw [Candidates.due_pull hlist] at hdrawn
    refine .inl ⟨rfl, ?_, hdrawn⟩
    rw [hlist]
    exact Nat.zero_lt_succ _
  | ended hlist =>
    refine .inr ⟨rfl, congrArg List.length hlist, ?_⟩
    simp [Candidates.due, hlist, Candidates.pull]

end Step

end EqualCost

/-! ### Both orders -/

/-- How many pulls come back empty until a cursor has passed all of so many linkages. -/
def CandidateOrder.emptyPulls (order : CandidateOrder) (n : Nat) : Nat :=
  if order = equalCost ∧ 0 < n then 2 else 1

namespace CandidateSequence

def order : CandidateSequence α → CandidateOrder
  | engine _ => .engine
  | equalCost _ => .equalCost

def Drawn (due : Nat) : CandidateSequence α → Prop
  | engine source => source.due = due
  | equalCost s => s.source.StaysExhausted ∧ EqualCost.Drawn due s.held s.source

theorem le_pulls_next (s : CandidateSequence α) : s.pulls ≤ s.next.2.pulls := by
  cases s with
  | engine source => exact Nat.le_succ _
  | equalCost s => exact (EqualCost.step_next s).le_pulls

theorem next_of_drawn {s : CandidateSequence α} {due n : Nat} (h : s.Drawn due) (hn : 0 < n) :
    s.next.2.order = s.order
      ∧ ((s.next.1.isSome = true ∧ s.next.2.Drawn due)
        ∨ (s.next.1 = none ∧ s.next.2.pulls = due + s.order.emptyPulls n)) := by
  refine ⟨by cases s <;> rfl, ?_⟩
  cases s with
  | engine source =>
    have hdue : source.due = due := h
    rcases source.pull_cases with ⟨hlist, hnone⟩ | ⟨a, hlist, hsome⟩
    · refine .inr ⟨hnone, ?_⟩
      rw [← hdue, Candidates.due, hlist]
      rfl
    · refine .inl ⟨?_, (Candidates.due_pull hlist).trans hdue⟩
      rw [next, hsome]
      rfl
  | equalCost s =>
    rcases (EqualCost.step_next s).drawn h.1 h.2 with ⟨hsome, hdrawn⟩ | ⟨hnone, hpulls⟩
    · exact .inl ⟨hsome, (EqualCost.next_spec h.1).2.2, hdrawn⟩
    · refine .inr ⟨hnone, ?_⟩
      rw [order, CandidateOrder.emptyPulls, if_pos ⟨rfl, hn⟩]
      exact hpulls

theorem next_of_candidates {c : Candidates α} {order : CandidateOrder}
    (hc : order = .engine ∨ c.StaysExhausted) :
    let s := (ofCandidates c order).next
    s.2.order = order ∧ ((s.1.isSome = true ∧ 0 < c.toList.length ∧ s.2.Drawn c.due)
      ∨ (s.1 = none ∧ s.2.pulls = c.due + order.emptyPulls c.toList.length)) := by
  intro s
  cases order with
  | engine =>
    refine ⟨rfl, ?_⟩
    rcases c.pull_cases with ⟨hlist, hnone⟩ | ⟨a, hlist, hsome⟩
    · refine .inr ⟨hnone, ?_⟩
      rw [Candidates.due, hlist]
      rfl
    · refine .inl ⟨Option.isSome_iff_exists.mpr ⟨a, hsome⟩, ?_, Candidates.due_pull hlist⟩
      rw [hlist]
      exact Nat.zero_lt_succ _
  | equalCost =>
    have hc : c.StaysExhausted := hc.resolve_left (by simp)
    refine ⟨rfl, ?_⟩
    rcases (EqualCost.step_next (.ofCandidates c)).drawn_first hc with
      ⟨hsome, hpos, hdrawn⟩ | ⟨hnone, hzero, hpulls⟩
    · exact .inl ⟨hsome, hpos, (EqualCost.next_spec hc).2.2, hdrawn⟩
    · refine .inr ⟨hnone, ?_⟩
      rw [hzero]
      exact hpulls

end CandidateSequence

namespace Cursor

inductive Progress (candidates : Candidates α) (order : CandidateOrder) (earlier : Nat) :
    Cursor α → Prop
  | within {sequence : CandidateSequence α} {a : α} {index : Nat}
      (hpos : 0 < candidates.toList.length) (horder : sequence.order = order)
      (hdrawn : sequence.Drawn candidates.due) :
    Progress candidates order earlier ⟨some ⟨sequence, some a, index⟩, earlier⟩
  | passed {sequence : CandidateSequence α} {index : Nat}
      (hpulls : sequence.pulls = candidates.due + order.emptyPulls candidates.toList.length) :
    Progress candidates order earlier ⟨some ⟨sequence, none, index⟩, earlier⟩

variable {candidates : Candidates α} {order : CandidateOrder} {earlier : Nat} {c : Cursor α}

omit [Linkage α] in
theorem progress_of_answer {answer : Option α} {sequence : CandidateSequence α} {index : Nat}
    (horder : sequence.order = order)
    (hanswer : (answer.isSome = true ∧ 0 < candidates.toList.length
        ∧ sequence.Drawn candidates.due)
      ∨ (answer = none
        ∧ sequence.pulls = candidates.due + order.emptyPulls candidates.toList.length)) :
    Progress candidates order earlier ⟨some ⟨sequence, answer, index⟩, earlier⟩ := by
  rcases hanswer with ⟨hsome, hpos, hdrawn⟩ | ⟨rfl, hpulls⟩
  · obtain ⟨a, rfl⟩ := Option.isSome_iff_exists.mp hsome
    exact .within hpos horder hdrawn
  · exact .passed hpulls

theorem progress_start (c : Cursor α) {d : Dictionary α} {text : String} {o : Options}
    (hparse : d.parse text o = .ok candidates) (hc : order = .engine ∨ candidates.StaysExhausted) :
    (c.start d text o order).2.Progress candidates order c.pulls := by
  obtain ⟨horder, hnext⟩ := CandidateSequence.next_of_candidates hc
  simp only [start, hparse]
  exact progress_of_answer horder hnext

theorem Progress.advance (h : c.Progress candidates order earlier) :
    c.advance.Progress candidates order earlier := by
  cases h with
  | within hpos horder hdrawn =>
    obtain ⟨hsame, hnext⟩ := CandidateSequence.next_of_drawn hdrawn hpos
    rw [horder] at hnext
    exact progress_of_answer (hsame.trans horder) (hnext.imp_left fun h => ⟨h.1, hpos, h.2⟩)
  | passed hpulls => exact .passed hpulls

theorem Progress.iterate (h : c.Progress candidates order earlier) (n : Nat) :
    (Cursor.advance^[n] c).Progress candidates order earlier := by
  induction n with
  | zero => exact h
  | succ n ih =>
    rw [Function.iterate_succ_apply']
    exact ih.advance

theorem le_pulls_advance (c : Cursor α) : c.pulls ≤ c.advance.pulls := by
  rcases c with ⟨_ | ⟨sequence, _ | a, index⟩, earlier⟩
  · exact le_rfl
  · exact le_rfl
  · exact Nat.add_le_add_left sequence.le_pulls_next earlier

theorem le_pulls_iterate (c : Cursor α) (n : Nat) : c.pulls ≤ (advance^[n] c).pulls := by
  induction n with
  | zero => exact le_rfl
  | succ n ih =>
    rw [Function.iterate_succ_apply']
    exact ih.trans (le_pulls_advance _)

theorem le_pulls_start (c : Cursor α) {d : Dictionary α} {text : String} {o : Options}
    (order : CandidateOrder) (hparse : d.parse text o = .ok candidates) :
    c.pulls + candidates.pulls ≤ (c.start d text o order).2.pulls := by
  have hfirst : (CandidateSequence.ofCandidates candidates order).pulls = candidates.pulls := by
    cases order <;> rfl
  have hnext := (CandidateSequence.ofCandidates candidates order).le_pulls_next
  rw [hfirst] at hnext
  simp only [start, hparse]
  exact Nat.add_le_add_left hnext c.pulls

theorem iterate_advance_of_none (hcurrent : c.current = none) (n : Nat) :
    advance^[n] c = c := by
  have hstays : c.advance = c := by
    rcases c with ⟨_ | ⟨sequence, _ | a, index⟩, earlier⟩
    · rfl
    · rfl
    · cases hcurrent
  exact Function.iterate_fixed hstays n

omit [Linkage α] in
theorem Progress.pulls_of_isSome (h : c.Progress candidates order earlier)
    (hcurrent : c.current.isSome = true) : 0 < candidates.toList.length
      ∧ (c.pulls ≤ earlier + candidates.due
        ∨ order = .equalCost ∧ c.pulls = earlier + candidates.due + 1) := by
  cases h with
  | @within sequence a index hpos horder hdrawn =>
    refine ⟨hpos, ?_⟩
    cases sequence with
    | engine source =>
      have hdue : source.due = candidates.due := hdrawn
      exact .inl (Nat.add_le_add_left (hdue ▸ source.pulls_le_due) earlier)
    | equalCost s =>
      obtain ⟨-, hdrawn⟩ := hdrawn
      rcases s with ⟨source, held, run⟩
      cases hdrawn with
      | held hdue => exact .inl (Nat.add_le_add_left (hdue ▸ source.pulls_le_due) earlier)
      | last hlist hpulls => exact .inr ⟨horder.symm, congrArg (earlier + ·) hpulls⟩
  | passed => cases hcurrent

omit [Linkage α] in
theorem Progress.pulls_of_none (h : c.Progress candidates order earlier)
    (hcurrent : c.current = none) : c.pulls = earlier + candidates.due
      + order.emptyPulls candidates.toList.length := by
  cases h with
  | within => cases hcurrent
  | passed hpulls => exact (congrArg (earlier + ·) hpulls).trans (Nat.add_assoc _ _ _).symm

omit [Linkage α] in
theorem Progress.pulls_eq {k : Nat} (h : c.Progress candidates order earlier)
    (hk : c.pulls = earlier + candidates.pulls + k) : k ≤ candidates.toList.length + 2
      ∧ (k = candidates.toList.length + 2
        ↔ order = .equalCost ∧ 0 < candidates.toList.length ∧ c.current = none) := by
  have hdue : candidates.due = candidates.pulls + candidates.toList.length := rfl
  rcases hcurrent : c.current with _ | a
  · have hpulls := h.pulls_of_none hcurrent
    rw [CandidateOrder.emptyPulls] at hpulls
    split at hpulls
    · next hsorted => exact ⟨by omega, fun _ => ⟨hsorted.1, hsorted.2, rfl⟩, fun _ => by omega⟩
    · next hsorted => exact ⟨by omega, by omega, fun hall => absurd ⟨hall.1, hall.2.1⟩ hsorted⟩
  · obtain ⟨-, hpulls⟩ := h.pulls_of_isSome (by rw [hcurrent]; rfl)
    exact ⟨by omega, by omega, fun hall => by cases hall.2.2⟩

/-- A source that ran dry is pulled again only by the step behind the last tied candidate. -/
theorem Progress.pulls_iterate {k : Nat} (h : c.Progress candidates order earlier)
    (hk : c.pulls = earlier + candidates.pulls + k) (hdry : candidates.RanDry k) (n : Nat) :
    (Cursor.advance^[n] c).pulls = c.pulls + if order = .equalCost ∧ c.current.isSome
      ∧ (Cursor.advance^[n] c).current.isNone then 1 else 0 := by
  have hdue : candidates.due = candidates.pulls + candidates.toList.length := rfl
  have hlength := (candidates.ranDry_iff k).mp hdry
  have hmore := c.le_pulls_iterate n
  rcases hcurrent : c.current with _ | a
  · rw [iterate_advance_of_none hcurrent, if_neg (by simp), Nat.add_zero]
  · obtain ⟨hpos, hpulls⟩ := h.pulls_of_isSome (by rw [hcurrent]; rfl)
    obtain ⟨hsorted, hpulls⟩ := hpulls.resolve_left (by omega)
    rcases hend : (Cursor.advance^[n] c).current with _ | b
    · have hlast := (h.iterate n).pulls_of_none hend
      rw [CandidateOrder.emptyPulls, if_pos ⟨hsorted, hpos⟩] at hlast
      rw [if_pos ⟨hsorted, rfl, rfl⟩]
      omega
    · obtain ⟨-, hlast⟩ := (h.iterate n).pulls_of_isSome (by rw [hend]; rfl)
      rw [if_neg (by simp)]
      omega

end Cursor

/-! ### Whatever is done with a sentence -/

theorem Cursor.exists_iterate_performAll (d : Dictionary α) (c : Cursor α) (ops : List Operation)
    (hops : ∀ text o order, .start text o order ∉ ops) :
    ∃ n, (c.performAll d ops).2 = advance^[n] c := by
  induction ops generalizing c with
  | nil => exact ⟨0, rfl⟩
  | cons op ops ih =>
    have hop : ∃ n, (c.perform d op).2 = advance^[n] c := by
      cases op with
      | start text o order => exact absurd List.mem_cons_self (hops text o order)
      | advance => exact ⟨1, rfl⟩
      | checkNone => exact ⟨0, rfl⟩
      | checkDiagram expected => exact ⟨0, rfl⟩
      | checkConstituents expected => exact ⟨0, rfl⟩
      | checkPositions expected =>
        obtain ⟨n, -, hn⟩ := Comparison.exists_le_iterate_checkPositions c expected
        exact ⟨n, hn⟩
    obtain ⟨m, hm⟩ := hop
    obtain ⟨n, hn⟩ := ih (c.perform d op).2 fun text o order h =>
      hops text o order (List.mem_cons_of_mem op h)
    refine ⟨n + m, ?_⟩
    rw [Function.iterate_add_apply, ← hm]
    exact hn

/-- Once a cursor has no linkage left, it pulls nothing any more. Of the pulls on `n` linkages one
comes back empty; but where tied candidates are sorted, this one only shows the end of the last run,
and one more is made when that run has been handed out. -/
theorem Cursor.pulls_of_start {d : Dictionary α} {text : String} {o : Options}
    {candidates : Candidates α} (hparse : d.parse text o = .ok candidates) (order : CandidateOrder)
    (c : Cursor α) {ops later : List Operation}
    (hops : ∀ text o order, .start text o order ∉ ops ++ later) :
    let reached := ((c.start d text o order).2.performAll d ops).2
    let left := (reached.performAll d later).2
    let n := candidates.toList.length
    (reached.current = none → left.pulls = reached.pulls)
      ∧ (order = .engine ∨ candidates.StaysExhausted →
        ∃ k, reached.pulls = c.pulls + candidates.pulls + k ∧ k ≤ n + 2
          ∧ (k = n + 2 ↔ order = .equalCost ∧ 0 < n ∧ reached.current = none)
          ∧ (candidates.RanDry k → left.pulls = reached.pulls
            + if order = .equalCost ∧ reached.current.isSome ∧ left.current.isNone then 1
              else 0)) := by
  intro reached left n
  obtain ⟨i, hi⟩ := exists_iterate_performAll d (c.start d text o order).2 ops
    fun text o order h => hops text o order (List.mem_append_left later h)
  obtain ⟨j, hj⟩ := exists_iterate_performAll d reached later
    fun text o order h => hops text o order (List.mem_append_right ops h)
  have hleft : left = advance^[j] reached := hj
  refine ⟨fun hnone => by rw [hleft, iterate_advance_of_none hnone], fun hc => ?_⟩
  have hprogress : reached.Progress candidates order c.pulls := by
    rw [show reached = _ from hi]
    exact (c.progress_start hparse hc).iterate i
  have hmore : c.pulls + candidates.pulls ≤ reached.pulls := by
    rw [show reached = _ from hi]
    exact (c.le_pulls_start order hparse).trans (le_pulls_iterate _ i)
  obtain ⟨k, hk⟩ := Nat.exists_eq_add_of_le hmore
  obtain ⟨hbound, hall⟩ := hprogress.pulls_eq hk
  refine ⟨k, hk, hbound, hall, fun hdry => ?_⟩
  rw [hleft]
  exact hprogress.pulls_iterate hk hdry j

def rankedGuesses : List RecordedLinkage :=
  [guess "a~", { guess "b~" with metrics := ⟨1, .zero, 0⟩ }]

theorem Cursor.pulls_of_start_guesses :
    let d := knowing "hi" rankedGuesses
    let search : List Operation := [.checkPositions "~"]
    let pulls := fun order =>
      (((idle : Cursor RecordedLinkage).start d "hi" .standard order).2.performAll d search).2.pulls
    pulls .engine ≤ 3 ∧ pulls .equalCost = 4 := by
  intro d search pulls
  have hops : ∀ text o order, .start text o order ∉ search ++ [] := by simp [search]
  have hparse : d.parse "hi" .standard = .ok (.ofList rankedGuesses) := rfl
  have hpassed : (((idle : Cursor RecordedLinkage).start d "hi" .standard .equalCost).2.performAll d
      search).2.current = none := by
    rw [← Option.isNone_iff_eq_none]
    decide +kernel
  obtain ⟨-, hengine⟩ := Cursor.pulls_of_start hparse .engine idle hops
  obtain ⟨-, hsorted⟩ := Cursor.pulls_of_start hparse .equalCost idle hops
  obtain ⟨k, hk, hbound, hall, -⟩ := hengine (.inl rfl)
  obtain ⟨m, hm, -, hlast, -⟩ := hsorted (.inr (Candidates.staysExhausted_ofList _))
  have hlength : (Candidates.ofList rankedGuesses).toList.length = 2 := rfl
  have hearlier : (idle : Cursor RecordedLinkage).pulls
      + (Candidates.ofList rankedGuesses).pulls = 0 := rfl
  rw [hlength] at hbound hall hlast
  have hnever : k ≠ 2 + 2 := fun hk => by cases (hall.mp hk).1
  have hmax := hlast.mpr ⟨rfl, by decide, hpassed⟩
  exact ⟨by simp only [pulls]; omega, by simp only [pulls]; omega⟩

/-- The pull that ends the only run comes back empty, and the one behind it does so again. -/
theorem Cursor.pulled_when_dry :
    let candidates := Candidates.ofList [guess "a~"]
    let d := knowing "hi" [guess "a~"]
    let started := ((idle : Cursor RecordedLinkage).start d "hi" .standard .equalCost).2
    let left := (started.performAll d [.advance]).2
    d.parse "hi" .standard = .ok candidates ∧ candidates.RanDry started.pulls
      ∧ left.pulls ≠ started.pulls ∧ ¬ left.pulls ≤ candidates.toList.length + 1 := by
  intro candidates d started left
  have hstarted : started.pulls = 2 := by decide +kernel
  have hleft : left.pulls = 3 := by decide +kernel
  have hlength : candidates.toList.length = 1 := rfl
  rw [Candidates.ranDry_iff, hstarted, hleft, hlength]
  exact ⟨rfl, by decide⟩

end LinkageCheck
