import LinkageCheck.Proofs.Diagram.Drawing
import LinkageCheck.Proofs.Traversal
import Mathlib.Algebra.Order.Field.Basic
import Mathlib.Data.List.Perm.Subperm
import Mathlib.Data.Rat.Cast.Order
import Mathlib.Order.CompletePartialOrder
import Mathlib.Order.Interval.Set.Disjoint

/-! On which rows the links of a diagram lie: links that overlap are on different rows, a link is
above those that it encloses, and a row is used only if the row below is taken where the link
lies. -/

namespace LinkageCheck.Diagram

/-! ### The first free row -/

theorem le_firstFree (taken : List Nat) (row : Nat) : row ≤ firstFree taken row := by
  fun_induction firstFree taken row with
  | case1 taken row hmem ih => exact (Nat.le_succ row).trans ih
  | case2 => exact le_rfl

theorem firstFree_not_mem (taken : List Nat) (row : Nat) : firstFree taken row ∉ taken := by
  fun_induction firstFree taken row with
  | case1 taken row hmem ih =>
    have hne : firstFree (taken.erase row) (row + 1) ≠ row :=
      (Nat.lt_of_succ_le (le_firstFree _ _)).ne'
    rwa [List.mem_erase_of_ne hne] at ih
  | case2 taken row hnot => exact hnot

theorem firstFree_le (taken : List Nat) (row : Nat) :
    firstFree taken row ≤ row + taken.length := by
  fun_induction firstFree taken row with
  | case1 taken row hmem ih =>
    have hlength := List.length_erase_of_mem hmem
    have hpos := List.length_pos_of_mem hmem
    omega
  | case2 => exact Nat.le_add_right _ _

/-! ### The row of one link -/

def rowAbove (placed : List Placed) (link : Link) : Nat :=
  ((placed.filter (encloses link ·.link)).map (·.row + 1)).foldl max 0

def Blocked (anchors : List Nat) (placed : List Placed) (link : Link) (row : Nat) : Prop :=
  ∃ q ∈ placed, q.row = row ∧ overlaps anchors link q.link = true

variable {anchors : List Nat} {placed : List Placed} {link : Link} {row : Nat}

theorem rowAbove_le_iff :
    rowAbove placed link ≤ row ↔ ∀ q ∈ placed, encloses link q.link = true → q.row < row := by
  rw [rowAbove, foldl_max_le_iff]
  simp only [Nat.zero_le, true_and, List.forall_mem_map, List.mem_filter, Nat.succ_le_iff, and_imp]

theorem blocked_iff :
    Blocked anchors placed link row
      ↔ row ∈ (placed.filter (overlaps anchors link ·.link)).map (·.row) := by
  simp only [Blocked, List.mem_map, List.mem_filter, and_left_comm, and_comm]

theorem rowAbove_le_place (anchors : List Nat) (placed : List Placed) (link : Link) :
    rowAbove placed link ≤ (place anchors placed link).row := le_firstFree _ _

theorem not_blocked_place (anchors : List Nat) (placed : List Placed) (link : Link) :
    ¬ Blocked anchors placed link (place anchors placed link).row := by
  rw [blocked_iff]
  exact firstFree_not_mem _ _

theorem blocked_of_lt_place (habove : rowAbove placed link ≤ row)
    (hrow : row < (place anchors placed link).row) : Blocked anchors placed link row := by
  rw [blocked_iff]
  exact mem_of_lt_firstFree habove hrow

theorem rowAbove_mono {before : List Placed} {a : Link} (hsub : ∀ q ∈ before, q ∈ placed)
    (h : encloses a = encloses link) : rowAbove before a ≤ rowAbove placed link := by
  rw [rowAbove_le_iff, h]
  intro q hq
  exact rowAbove_le_iff.mp le_rfl q (hsub q hq)

theorem Blocked.mono {before : List Placed} {a : Link} (hblocked : Blocked anchors before a row)
    (hsub : ∀ q ∈ before, q ∈ placed) (h : overlaps anchors a = overlaps anchors link) :
    Blocked anchors placed link row := by
  obtain ⟨q, hq, hrow, hoverlaps⟩ := hblocked
  rw [h] at hoverlaps
  exact ⟨q, hsub q hq, hrow, hoverlaps⟩

/-- The search for a row goes up from one blocked row to the next, and passes each placed link at
most once. -/
theorem exists_turns_place (anchors : List Nat) (placed : List Placed) (link : Link) :
    ∃ turns ≤ placed.length, (place anchors placed link).row = rowAbove placed link + turns
      ∧ (∀ t < turns, Blocked anchors placed link (rowAbove placed link + t))
      ∧ ¬ Blocked anchors placed link (rowAbove placed link + turns) := by
  obtain ⟨turns, hturns⟩ := Nat.exists_eq_add_of_le (rowAbove_le_place anchors placed link)
  have hbound : (place anchors placed link).row ≤ rowAbove placed link
      + ((placed.filter (overlaps anchors link ·.link)).map (·.row)).length := firstFree_le _ _
  have hlength := List.length_filter_le (overlaps anchors link ·.link) placed
  rw [List.length_map] at hbound
  refine ⟨turns, by omega, hturns, fun t ht => ?_, ?_⟩
  · apply blocked_of_lt_place (Nat.le_add_right _ t)
    omega
  · rw [← hturns]
    exact not_blocked_place _ _ _

/-! ### The rows of all links -/

theorem eq_place_of_placeAll {links : List Link} {before later : List Placed} {p : Placed}
    (h : placeAll anchors links = before ++ p :: later) : p = place anchors before p.link := by
  induction links using List.reverseRecOn generalizing later with
  | nil => simp [placeAll] at h
  | append_singleton links link ih =>
    rw [placeAll_append_singleton] at h
    rcases List.eq_nil_or_concat later with rfl | ⟨later, last, rfl⟩
    · obtain ⟨rfl, hlast⟩ := List.append_inj' h rfl
      rw [← List.singleton_inj.mp hlast]
      rfl
    · rw [List.concat_eq_append, ← List.cons_append, ← List.append_assoc] at h
      exact ih (List.append_inj_left' h rfl)

theorem exists_eq_place_of_mem {links : List Link} {p : Placed} (hp : p ∈ placeAll anchors links) :
    ∃ before, p = place anchors before p.link ∧ ∀ q ∈ before, q ∈ placeAll anchors links := by
  obtain ⟨before, later, hsplit⟩ := List.append_of_mem hp
  refine ⟨before, eq_place_of_placeAll hsplit, fun q hq => ?_⟩
  rw [hsplit]
  exact List.mem_append_left _ hq

theorem pairwise_placeAll {R : Placed → Placed → Prop} (links : List Link)
    (hstep : ∀ links link, ∀ q ∈ placeAll anchors links,
      R q (place anchors (placeAll anchors links) link)) :
    (placeAll anchors links).Pairwise R := by
  induction links using List.reverseRecOn with
  | nil => exact .nil
  | append_singleton links link ih =>
    rw [placeAll_append_singleton, List.pairwise_append]
    refine ⟨ih, List.pairwise_singleton _ _, fun q hq p hp => ?_⟩
    obtain rfl := List.mem_singleton.mp hp
    exact hstep links link q hq

theorem pairwise_not_overlaps (anchors : List Nat) (links : List Link) :
    (placeAll anchors links).Pairwise fun q p =>
      q.row = p.row → overlaps anchors p.link q.link = false := by
  apply pairwise_placeAll
  intro links link q hq hrow
  have hfree := not_blocked_place anchors (placeAll anchors links) link
  simp only [Blocked, not_exists, not_and, Bool.not_eq_true] at hfree
  exact hfree q hq hrow

theorem pairwise_lt_of_encloses (anchors : List Nat) (links : List Link) :
    (placeAll anchors links).Pairwise fun q p => encloses p.link q.link = true → q.row < p.row := by
  apply pairwise_placeAll
  intro links link q hq
  exact rowAbove_le_iff.mp (rowAbove_le_place _ _ _) q hq

/-- A later link with the same two ends finds every row taken on which the earlier one looked for
a place, and the one that it got. -/
theorem pairwise_lt_of_sameEnds (anchors : List Nat) (links : List Link) :
    (placeAll anchors links).Pairwise fun q p =>
      column anchors q.link.left < column anchors q.link.right →
      q.link.left = p.link.left → q.link.right = p.link.right → q.row < p.row := by
  apply pairwise_placeAll
  intro links link q hq hcolumn hleft hright
  change q.link.left = link.left at hleft
  change q.link.right = link.right at hright
  obtain ⟨before, hplace, hsub⟩ := exists_eq_place_of_mem hq
  have hencloses : encloses q.link = encloses link := by
    funext other
    rw [encloses, hleft, hright, encloses]
  have hoverlaps : overlaps anchors q.link = overlaps anchors link := by
    funext other
    rw [overlaps, hleft, hright, overlaps]
  have habove : rowAbove before q.link ≤ (place anchors (placeAll anchors links) link).row :=
    (rowAbove_mono hsub hencloses).trans (rowAbove_le_place _ _ _)
  by_contra hle
  -- the row found lies on the way of the earlier link to its own row, so it is taken
  apply not_blocked_place anchors (placeAll anchors links) link
  rcases Nat.eq_or_lt_of_le (Nat.not_lt.mp hle) with hrow | hrow
  · refine ⟨q, hq, hrow.symm, ?_⟩
    rw [← hoverlaps, overlaps, decide_eq_true hcolumn]
    rfl
  · rw [hplace] at hrow
    exact (blocked_of_lt_place habove hrow).mono hsub hoverlaps

/-! ### The order of placement -/

theorem comesBefore_trans (a b c : Link) (hab : comesBefore a b = true)
    (hbc : comesBefore b c = true) : comesBefore a c = true := by
  simp only [comesBefore, Bool.or_eq_true, Bool.and_eq_true, decide_eq_true_eq, beq_iff_eq] at *
  omega

theorem comesBefore_total (a b : Link) : (comesBefore a b || comesBefore b a) = true := by
  simp only [comesBefore, Bool.or_eq_true, Bool.and_eq_true, decide_eq_true_eq, beq_iff_eq]
  omega

theorem encloses_iff {a b : Link} :
    encloses a b = true ↔ a.left ≤ b.left ∧ b.right ≤ a.right
      ∧ (b.left, b.right) ≠ (a.left, a.right) := by
  simp [encloses, and_assoc, imp_iff_not_or]

theorem encloses_eq_false_of_comesBefore {a b : Link} (h : comesBefore a b = true)
    (hb : b.left < b.right) : encloses a b = false := by
  simp only [comesBefore, encloses, Bool.or_eq_true, Bool.and_eq_true, Bool.and_eq_false_iff,
    Bool.not_eq_false', decide_eq_true_eq, decide_eq_false_iff_not, beq_iff_eq] at *
  omega

theorem pairwise_comesBefore (anchors : List Nat) (links : List Link) :
    (placeAll anchors (placementOrder links)).Pairwise fun p q =>
      comesBefore p.link q.link = true := by
  have hsorted := List.pairwise_mergeSort comesBefore_trans comesBefore_total links
  change (placementOrder links).Pairwise _ at hsorted
  rw [← map_link_placeAll anchors (placementOrder links), List.pairwise_map] at hsorted
  exact hsorted

def joins (left right : Nat) (link : Link) : Bool := link.left == left && link.right == right

theorem joins_iff {left right : Nat} {link : Link} :
    joins left right link = true ↔ link.left = left ∧ link.right = right := by
  rw [joins, Bool.and_eq_true, beq_iff_eq, beq_iff_eq]

theorem map_link_filter_joins (measure : String → Nat) (d : Diagram) (left right : Nat) :
    ((d.layoutBy measure).placed.filter (joins left right ·.link)).map (·.link)
      = d.links.filter (joins left right) := by
  have hsame : ∀ a b, joins left right a = true → joins left right b = true →
      comesBefore a b = true := by
    intro a b ha hb
    obtain ⟨haleft, haright⟩ := joins_iff.mp ha
    obtain ⟨hbleft, hbright⟩ := joins_iff.mp hb
    simp only [comesBefore, haleft, haright, hbleft, hbright, beq_self_eq_true, le_refl,
      decide_true, Bool.and_self, Bool.or_true]
  calc ((d.layoutBy measure).placed.filter (joins left right ·.link)).map (·.link)
      = ((d.layoutBy measure).placed.map (·.link)).filter (joins left right) := by
        rw [List.filter_map]
        rfl
    _ = (placementOrder d.links).filter (joins left right) := by
        rw [placed_eq, map_link_placeAll]
    _ = d.links.filter (joins left right) :=
        filter_mergeSort comesBefore_trans comesBefore_total hsame d.links

/-! ### The rows of a diagram -/

section Layout

variable {measure : String → Nat} {d : Diagram} {p q : Placed}

theorem column_left_lt_right (hp : p ∈ (d.layoutBy measure).placed) :
    column (d.layoutBy measure).anchors p.link.left
      < column (d.layoutBy measure).anchors p.link.right := by
  obtain ⟨hleft, hright⟩ := d.valid _ (mem_links_of_mem_placed hp)
  exact column_lt_column measure d hleft hright

theorem overlaps_of_encloses (hp : p ∈ (d.layoutBy measure).placed)
    (hq : q ∈ (d.layoutBy measure).placed) (h : encloses p.link q.link = true) :
    overlaps (d.layoutBy measure).anchors p.link q.link = true := by
  have hpright := (d.valid _ (mem_links_of_mem_placed hp)).2
  obtain ⟨hleft, hright⟩ := d.valid _ (mem_links_of_mem_placed hq)
  obtain ⟨hstart, hend, -⟩ := encloses_iff.mp h
  simp only [overlaps, Bool.and_eq_true, decide_eq_true_eq]
  exact ⟨column_lt_column measure d (hstart.trans_lt hleft) hright,
    column_lt_column measure d (hleft.trans_le hend) hpright⟩

theorem row_lt_of_encloses (hp : p ∈ (d.layoutBy measure).placed)
    (hq : q ∈ (d.layoutBy measure).placed) (h : encloses p.link q.link = true) :
    q.row < p.row := by
  let R : Placed → Placed → Prop := fun a b => encloses a.link b.link = true → b.row < a.row
  have hforward : (d.layoutBy measure).placed.Pairwise R := by
    refine (pairwise_comesBefore _ d.links).imp_of_mem fun {a b} _ hb hbefore hencloses => ?_
    have hvalid := d.valid _ (mem_links_of_mem_placed hb)
    rw [encloses_eq_false_of_comesBefore hbefore hvalid.1] at hencloses
    cases hencloses
  have hself : ∀ a ∈ (d.layoutBy measure).placed, R a a := by
    intro a _ hencloses
    simp [encloses] at hencloses
  exact List.Pairwise.forall_of_forall_of_flip hself hforward (pairwise_lt_of_encloses _ _) hp hq h

theorem exists_overlaps_below {k : Nat} (hp : p ∈ (d.layoutBy measure).placed)
    (hrow : p.row = k + 1) : ∃ q ∈ (d.layoutBy measure).placed,
      q.row = k ∧ overlaps (d.layoutBy measure).anchors p.link q.link = true := by
  rw [placed_eq] at hp
  obtain ⟨before, hplace, hmem⟩ := exists_eq_place_of_mem hp
  rw [← placed_eq] at hp hmem
  by_cases habove : rowAbove before p.link ≤ k
  · have hk : k < (place (d.layoutBy measure).anchors before p.link).row := by
      rw [← hplace, hrow]
      exact Nat.lt_succ_self k
    obtain ⟨q, hq, hfound⟩ := blocked_of_lt_place habove hk
    exact ⟨q, hmem q hq, hfound⟩
  · rw [rowAbove_le_iff] at habove
    push Not at habove
    obtain ⟨q, hq, hencloses, hk⟩ := habove
    have hlt := row_lt_of_encloses hp (hmem q hq) hencloses
    exact ⟨q, hmem q hq, by omega, overlaps_of_encloses hp (hmem q hq) hencloses⟩

theorem height_le (measure : String → Nat) (d : Diagram) :
    height (d.layoutBy measure).placed ≤ d.links.length := by
  have hrows : List.range (height (d.layoutBy measure).placed)
      ⊆ (d.layoutBy measure).placed.map (·.row) := by
    intro k hk
    obtain ⟨p, hp, hrow⟩ := exists_row (filled_placeAll _ _) (List.mem_range.mp hk)
    exact List.mem_map.mpr ⟨p, hp, hrow⟩
  have hlength := (List.nodup_range.subperm hrows).length_le
  have hlinks := (map_link_perm measure d).length_eq
  rw [List.length_range, List.length_map] at hlength
  rw [List.length_map] at hlinks
  omega

end Layout

/-- The columns strictly between the two ends of a link. Between any two columns there are others,
so that two links on the same two neighbouring columns have a place in common. -/
def span (anchors : List Nat) (link : Link) : Set ℚ :=
  Set.Ioo (column anchors link.left : ℚ) (column anchors link.right)

theorem disjoint_span_iff {a b : Link} (ha : column anchors a.left < column anchors a.right)
    (hb : column anchors b.left < column anchors b.right) :
    Disjoint (span anchors a) (span anchors b) ↔ overlaps anchors a b = false := by
  rw [span, span, Set.Ioo_disjoint_Ioo, overlaps, Bool.and_eq_false_iff]
  simp only [min_le_iff, le_max_iff, Nat.cast_le, decide_eq_false_iff_not]
  omega

structure Stacked (d : Diagram) (l : Layout) : Prop where
  links : (l.placed.map (·.link)).Perm d.links
  /-- Two links on one row lie side by side. -/
  apart : l.placed.Pairwise fun p q => p.row = q.row →
    Disjoint (span l.anchors p.link) (span l.anchors q.link)
  /-- A link is above those with other ends that it encloses. -/
  enclosing : ∀ p ∈ l.placed, ∀ q ∈ l.placed,
    p.link.left ≤ q.link.left → q.link.right ≤ p.link.right →
    (q.link.left, q.link.right) ≠ (p.link.left, p.link.right) → q.row < p.row
  /-- Links with the same two ends go up in the order in which they were added. -/
  added : ∀ left right,
    (l.placed.filter (joins left right ·.link)).map (·.link)
        = d.links.filter (joins left right)
      ∧ (l.placed.filter (joins left right ·.link)).Pairwise (·.row < ·.row)
  /-- A link above the lowest row overlaps one on the row below. -/
  supported : ∀ p ∈ l.placed, ∀ k, p.row = k + 1 → ∃ q ∈ l.placed,
    q.row = k ∧ ¬ Disjoint (span l.anchors p.link) (span l.anchors q.link)
  filled : ∀ k < height l.placed, ∃ p ∈ l.placed, p.row = k
  height_le : height l.placed ≤ d.links.length
  /-- The search for the row of a link starts above what it encloses, and after at most as many
  turns as there are links before it, it ends at the first row that is not blocked. -/
  search : ∀ before p later, l.placed = before ++ p :: later →
    ∃ turns ≤ before.length, p.row = rowAbove before p.link + turns
      ∧ (∀ t < turns, Blocked l.anchors before p.link (rowAbove before p.link + t))
      ∧ ¬ Blocked l.anchors before p.link (rowAbove before p.link + turns)

theorem layout_stacked (measure : String → Nat) (d : Diagram) :
    d.Stacked (d.layoutBy measure) where
  links := map_link_perm measure d
  apart := by
    have hfree : (d.layoutBy measure).placed.Pairwise fun q p =>
        q.row = p.row → overlaps (d.layoutBy measure).anchors p.link q.link = false :=
      pairwise_not_overlaps _ _
    refine hfree.imp_of_mem fun {q p} hq hp hdistinct hrow => ?_
    exact ((disjoint_span_iff (column_left_lt_right hp) (column_left_lt_right hq)).mpr
      (hdistinct hrow)).symm
  enclosing := by
    intro p hp q hq hleft hright hends
    apply row_lt_of_encloses hp hq
    rw [encloses_iff]
    exact ⟨hleft, hright, hends⟩
  added := by
    intro left right
    refine ⟨map_link_filter_joins measure d left right, ?_⟩
    have hordered := pairwise_lt_of_sameEnds (d.layoutBy measure).anchors (placementOrder d.links)
    refine (hordered.filter (joins left right ·.link)).imp_of_mem fun {q p} hq hp hlt => ?_
    obtain ⟨hq, hqjoins⟩ := List.mem_filter.mp hq
    obtain ⟨hqleft, hqright⟩ := joins_iff.mp hqjoins
    obtain ⟨hpleft, hpright⟩ := joins_iff.mp (List.mem_filter.mp hp).2
    exact hlt (column_left_lt_right hq) (hqleft.trans hpleft.symm) (hqright.trans hpright.symm)
  supported := by
    intro p hp k hrow
    obtain ⟨q, hq, hbelow, hoverlaps⟩ := exists_overlaps_below hp hrow
    refine ⟨q, hq, hbelow, ?_⟩
    rw [disjoint_span_iff (column_left_lt_right hp) (column_left_lt_right hq), hoverlaps]
    decide
  filled := fun k hk => exists_row (filled_placeAll _ _) hk
  height_le := height_le measure d
  search := by
    intro before p later hsplit
    have hplace : p = place (d.layoutBy measure).anchors before p.link :=
      eq_place_of_placeAll hsplit
    have hturns := exists_turns_place (d.layoutBy measure).anchors before p.link
    rwa [← hplace] at hturns

end LinkageCheck.Diagram
