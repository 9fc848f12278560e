import LinkageCheck.Proofs.Diagram.Picture
import Mathlib.Order.Bounds.Basic

/-! Diagrams whose links do not cross: the row of a link tells how deep links are nested in it, and
its verticals are seen all the way down to its words. -/

namespace LinkageCheck.Diagram

/-- The second link begins strictly within the first one and ends behind it. -/
def Crosses (a b : Link) : Prop := a.left < b.left ∧ b.left < a.right ∧ a.right < b.right

instance (a b : Link) : Decidable (Crosses a b) := inferInstanceAs (Decidable (_ ∧ _))

def Planar (d : Diagram) : Prop := ∀ a ∈ d.links, ∀ b ∈ d.links, ¬ Crosses a b

instance (d : Diagram) : Decidable d.Planar :=
  inferInstanceAs (Decidable (∀ a ∈ d.links, ∀ b ∈ d.links, ¬ Crosses a b))

/-- The second link lies within the first one, and their ends are not the same. -/
def Nests (outer inner : Link) : Prop :=
  outer.left ≤ inner.left ∧ inner.right ≤ outer.right
    ∧ (inner.left, inner.right) ≠ (outer.left, outer.right)

def NestedChain (d : Diagram) (chain : List Link) : Prop :=
  (∀ link ∈ chain, link ∈ d.links) ∧ chain.IsChain Nests

variable {measure : String → Nat} {d : Diagram} {p q : Placed}

theorem lt_of_column_lt {i j : Nat} (hi : i < d.words.length)
    (h : column (d.layoutBy measure).anchors i < column (d.layoutBy measure).anchors j) :
    i < j := by
  by_contra hle
  rcases Nat.eq_or_lt_of_le (Nat.not_lt.mp hle) with rfl | hlt
  · exact absurd h (Nat.lt_irrefl _)
  · exact absurd h (column_lt_column measure d hlt hi).le.not_gt

/-! ### Nesting depth -/

theorem nests_of_overlaps (hplanar : Planar d) (hp : p ∈ (d.layoutBy measure).placed)
    (hq : q ∈ (d.layoutBy measure).placed)
    (h : overlaps (d.layoutBy measure).anchors p.link q.link = true) :
    (p.link.left, p.link.right) = (q.link.left, q.link.right)
      ∨ Nests p.link q.link ∨ Nests q.link p.link := by
  have hp := mem_links_of_mem_placed hp
  have hq := mem_links_of_mem_placed hq
  obtain ⟨hpleft, hpright⟩ := d.valid _ hp
  obtain ⟨hqleft, hqright⟩ := d.valid _ hq
  simp only [overlaps, Bool.and_eq_true, decide_eq_true_eq] at h
  have hpq := lt_of_column_lt (hpleft.trans hpright) h.1
  have hqp := lt_of_column_lt (hqleft.trans hqright) h.2
  have hcross := hplanar _ hp _ hq
  have hcross' := hplanar _ hq _ hp
  simp only [Crosses, Nests, ne_eq, Prod.mk.injEq] at *
  omega

/-- Links that do not cross are lifted by those nested in them and by no others. -/
theorem exists_row_eq_rowAbove (hplanar : Planar d)
    (hdistinct : (d.links.map fun link => (link.left, link.right)).Nodup)
    (hp : p ∈ (d.layoutBy measure).placed) :
    ∃ before, p.row = rowAbove before p.link ∧ ∀ q ∈ before, q ∈ (d.layoutBy measure).placed := by
  obtain ⟨before, later, hsplit⟩ := List.append_of_mem hp
  have hbefore : ∀ q ∈ before, q ∈ (d.layoutBy measure).placed := by
    intro q hq
    rw [hsplit]
    exact List.mem_append_left _ hq
  have hends : (d.layoutBy measure).placed.Pairwise fun q p =>
      (q.link.left, q.link.right) ≠ (p.link.left, p.link.right) := by
    have hnodup :=
      ((map_link_perm measure d).map fun link => (link.left, link.right)).nodup_iff.mpr hdistinct
    rwa [List.map_map, List.Nodup, List.pairwise_map] at hnodup
  have horder : (d.layoutBy measure).placed.Pairwise fun q p => comesBefore q.link p.link = true :=
    pairwise_comesBefore _ _
  have hplace : p = place (d.layoutBy measure).anchors before p.link := eq_place_of_placeAll hsplit
  have hfree : ¬ Blocked (d.layoutBy measure).anchors before p.link (rowAbove before p.link) := by
    rintro ⟨q, hq, hrow, hoverlaps⟩
    rw [hsplit] at hends horder
    have hends := (List.pairwise_append.mp hends).2.2 q hq p List.mem_cons_self
    have horder := (List.pairwise_append.mp horder).2.2 q hq p List.mem_cons_self
    rcases nests_of_overlaps hplanar hp (hbefore q hq) hoverlaps with hsame | hnests | hnests
    · exact hends hsame.symm
    · have hlt := rowAbove_le_iff.mp le_rfl q hq (encloses_iff.mpr hnests)
      omega
    · -- the longer link would come later
      have hnot := encloses_eq_false_of_comesBefore horder
        (d.valid _ (mem_links_of_mem_placed hp)).1
      rw [encloses_iff.mpr hnests] at hnot
      cases hnot
  refine ⟨before, ?_, hbefore⟩
  obtain ⟨turns, -, hrow, hblocked, -⟩ :=
    exists_turns_place (d.layoutBy measure).anchors before p.link
  rw [← hplace] at hrow
  rcases turns with _ | turns
  · exact hrow
  · exact absurd (hblocked 0 (Nat.succ_pos turns)) hfree

theorem exists_nests_below (hplanar : Planar d)
    (hdistinct : (d.links.map fun link => (link.left, link.right)).Nodup)
    (hp : p ∈ (d.layoutBy measure).placed) {k : Nat} (hrow : p.row = k + 1) :
    ∃ q ∈ (d.layoutBy measure).placed, q.row = k ∧ Nests p.link q.link := by
  obtain ⟨before, habove, hmem⟩ := exists_row_eq_rowAbove hplanar hdistinct hp
  have hlifted : ¬ rowAbove before p.link ≤ k := by omega
  rw [rowAbove_le_iff] at hlifted
  push Not at hlifted
  obtain ⟨q, hq, hencloses, hk⟩ := hlifted
  have hlt := row_lt_of_encloses hp (hmem q hq) hencloses
  exact ⟨q, hmem q hq, by omega, encloses_iff.mp hencloses⟩

theorem length_le_row {chain : List Link} (hp : p ∈ (d.layoutBy measure).placed)
    (hchain : NestedChain d (p.link :: chain)) : chain.length ≤ p.row := by
  induction chain generalizing p with
  | nil => exact Nat.zero_le _
  | cons link chain ih =>
    obtain ⟨hmem, hnests⟩ := hchain
    obtain ⟨-, hmem⟩ := List.forall_mem_cons.mp hmem
    obtain ⟨hnests, hrest⟩ := List.isChain_cons_cons.mp hnests
    have hlink := (map_link_perm measure d).mem_iff.mpr (hmem link List.mem_cons_self)
    obtain ⟨q, hq, rfl⟩ := List.mem_map.mp hlink
    have hlt := row_lt_of_encloses hp hq (encloses_iff.mpr hnests)
    have hle := ih hq ⟨hmem, hrest⟩
    rw [List.length_cons]
    omega

theorem exists_chain (hplanar : Planar d)
    (hdistinct : (d.links.map fun link => (link.left, link.right)).Nodup)
    (hp : p ∈ (d.layoutBy measure).placed) :
    ∃ chain, NestedChain d (p.link :: chain) ∧ chain.length = p.row := by
  obtain ⟨k, hk⟩ : ∃ k, p.row = k := ⟨_, rfl⟩
  induction k generalizing p with
  | zero =>
    exact ⟨[], ⟨List.forall_mem_singleton.mpr (mem_links_of_mem_placed hp), .singleton _⟩, hk.symm⟩
  | succ k ih =>
    obtain ⟨q, hq, hrow, hnests⟩ := exists_nests_below hplanar hdistinct hp hk
    obtain ⟨chain, ⟨hmem, hchain⟩, hlength⟩ := ih hq hrow
    refine ⟨q.link :: chain, ⟨List.forall_mem_cons.mpr ⟨mem_links_of_mem_placed hp, hmem⟩,
      List.isChain_cons_cons.mpr ⟨hnests, hchain⟩⟩, ?_⟩
    rw [List.length_cons, hlength, hrow, hk]

theorem exists_height_eq (hp : p ∈ (d.layoutBy measure).placed) :
    ∃ top ∈ (d.layoutBy measure).placed, height (d.layoutBy measure).placed = top.row + 1 := by
  have hpos := lt_height hp
  obtain ⟨top, htop, hrow⟩ := exists_row (filled_placeAll _ _)
    (show height (d.layoutBy measure).placed - 1 < height (d.layoutBy measure).placed by omega)
  exact ⟨top, htop, by omega⟩

/-- Where no links cross and no two have the same ends, the row of a link is the length of the
longest chain nested in it, and the rows are as many as the links of the longest chain. -/
theorem rows_nesting (measure : String → Nat) (d : Diagram) (hplanar : Planar d)
    (hdistinct : (d.links.map fun link => (link.left, link.right)).Nodup) :
    let l := d.layoutBy measure
    (l.placed.map (·.link)).Perm d.links
      ∧ (∀ p ∈ l.placed,
          IsGreatest {n | ∃ chain, NestedChain d (p.link :: chain) ∧ chain.length = n} p.row)
      ∧ IsGreatest {n | ∃ chain, NestedChain d chain ∧ chain.length = n} (height l.placed) := by
  intro l
  refine ⟨map_link_perm measure d, fun p hp => ⟨exists_chain hplanar hdistinct hp, ?_⟩, ?_, ?_⟩
  · rintro _ ⟨chain, hchain, rfl⟩
    exact length_le_row hp hchain
  · rcases hplaced : l.placed with _ | ⟨p, placed⟩
    · exact ⟨[], ⟨fun link hlink => absurd hlink List.not_mem_nil, .nil⟩, rfl⟩
    · have hp : p ∈ l.placed := by
        rw [hplaced]
        exact List.mem_cons_self
      obtain ⟨top, htop, hheight⟩ := exists_height_eq hp
      obtain ⟨chain, hchain, hlength⟩ := exists_chain hplanar hdistinct htop
      rw [← hplaced, hheight]
      exact ⟨top.link :: chain, hchain, congrArg (· + 1) hlength⟩
  · rintro _ ⟨_ | ⟨link, chain⟩, hchain, rfl⟩
    · exact Nat.zero_le _
    · have hlink := (map_link_perm measure d).mem_iff.mpr (hchain.1 link List.mem_cons_self)
      obtain ⟨q, hq, rfl⟩ := List.mem_map.mp hlink
      exact (Nat.succ_le_succ (length_le_row hq hchain)).trans (lt_height hq)

theorem planar_thisIsATest : Planar thisIsATest := by decide

theorem rows_nesting_thisIsATest :
    Planar thisIsATest ∧ (thisIsATest.links.map fun link => (link.left, link.right)).Nodup
      ∧ IsGreatest {n | ∃ chain, NestedChain thisIsATest (⟨2, 4, "Os"⟩ :: chain)
          ∧ chain.length = n} 1
      ∧ IsGreatest {n | ∃ chain, NestedChain thisIsATest chain ∧ chain.length = n} 2 := by
  have hdistinct : (thisIsATest.links.map fun link => (link.left, link.right)).Nodup := by decide
  obtain ⟨-, hrows, hheight⟩ :=
    rows_nesting Text.displayWidth thisIsATest planar_thisIsATest hdistinct
  change ∀ p ∈ thisIsATest.layout.placed, _ at hrows
  change IsGreatest _ (height thisIsATest.layout.placed) at hheight
  rw [layout_thisIsATest] at hrows hheight
  exact ⟨planar_thisIsATest, hdistinct, hrows ⟨⟨2, 4, "Os"⟩, 1⟩ (by decide), hheight⟩

/-! ### Verticals -/

theorem not_within_of_row_lt (hplanar : Planar d) (hp : p ∈ (d.layoutBy measure).placed)
    (hq : q ∈ (d.layoutBy measure).placed) (hrow : q.row < p.row) {c : Nat}
    (hc : c ∈ ends (d.layoutBy measure).anchors p.link) :
    ¬ (column (d.layoutBy measure).anchors q.link.left < c
      ∧ c < column (d.layoutBy measure).anchors q.link.right) := by
  rintro ⟨hleft, hright⟩
  obtain ⟨hpleft, hpright⟩ := d.valid _ (mem_links_of_mem_placed hp)
  obtain ⟨hqleft, hqright⟩ := d.valid _ (mem_links_of_mem_placed hq)
  have hcross := hplanar _ (mem_links_of_mem_placed hp) _ (mem_links_of_mem_placed hq)
  have hcross' := hplanar _ (mem_links_of_mem_placed hq) _ (mem_links_of_mem_placed hp)
  have hnests : Nests q.link p.link := by
    simp only [Crosses, Nests, ne_eq, Prod.mk.injEq] at *
    rcases List.mem_cons.mp hc with rfl | hc
    · have hleft := lt_of_column_lt (hqleft.trans hqright) hleft
      have hright := lt_of_column_lt (hpleft.trans hpright) hright
      omega
    · obtain rfl := List.mem_singleton.mp hc
      have hleft := lt_of_column_lt (hqleft.trans hqright) hleft
      have hright := lt_of_column_lt hpright hright
      omega
  exact absurd hrow (row_lt_of_encloses hq hp (encloses_iff.mpr hnests)).not_gt

theorem lt_width_of_mem_ends (hp : p ∈ (d.layoutBy measure).placed) {c : Nat}
    (hc : c ∈ ends (d.layoutBy measure).anchors p.link) : c < (d.layoutBy measure).width := by
  obtain ⟨hleft, hright⟩ := d.valid _ (mem_links_of_mem_placed hp)
  rcases List.mem_cons.mp hc with rfl | hc
  · exact column_lt_width measure d (hleft.trans hright)
  · obtain rfl := List.mem_singleton.mp hc
    exact column_lt_width measure d hright

theorem getElem?_drawRow_of_row_lt (hplanar : Planar d) (hp : p ∈ (d.layoutBy measure).placed)
    {k c : Nat} (hk : k < p.row) (hc : c ∈ ends (d.layoutBy measure).anchors p.link) :
    (drawRow (d.layoutBy measure) k)[c]? = some '|'
      ∨ (drawRow (d.layoutBy measure) k)[c]? = some '+' := by
  obtain ⟨-, hshown, hclear⟩ := linkRow_spec (roomy_layout measure d) k
  have habove : EndsAbove (d.layoutBy measure) k c := ⟨p, hp, hk, hc⟩
  rw [getElem?_drawRow]
  by_cases hcovers : ∀ q ∈ (d.layoutBy measure).placed, q.row = k →
      ¬ Covers (d.layoutBy measure).anchors q.link c
  · rw [hclear c (lt_width_of_mem_ends hp hc) hcovers]
    exact .inl (congrArg some (if_pos ⟨rfl, habove⟩))
  · -- a link of the row reaches the column, and only with one of its ends
    push Not at hcovers
    obtain ⟨q, hq, rfl, hleft, hright⟩ := hcovers
    have hwithin := not_within_of_row_lt hplanar hp hq hk hc
    have hplus : (linkRow (d.layoutBy measure) q.row)[c]? = some '+' := by
      rcases Nat.eq_or_lt_of_le hleft with rfl | hleft
      · exact (hshown q hq rfl).left
      · obtain rfl : c = column (d.layoutBy measure).anchors q.link.right := by omega
        exact (hshown q hq rfl).right
    rw [hplus]
    exact .inr rfl

theorem getElem?_barRow (hp : p ∈ (d.layoutBy measure).placed) {c : Nat}
    (hc : c ∈ ends (d.layoutBy measure).anchors p.link) :
    (barRow (d.layoutBy measure))[c]? = some '|' := by
  have hends : c ∈ (d.layoutBy measure).placed.flatMap fun p =>
      ends (d.layoutBy measure).anchors p.link := List.mem_flatMap.mpr ⟨p, hp, hc⟩
  rw [barRow, getElem?_foldl_drawVertical, blankRow, List.getElem?_replicate,
    if_pos (lt_width_of_mem_ends hp hc), Option.map_some, if_pos ⟨rfl, hends⟩]

/-- Where no links cross, every link is connected to its words: under each of its ends the rows
below and the bars show its vertical, and no lower link passes there. -/
theorem verticals_visible (measure : String → Nat) (d : Diagram) (hplanar : Planar d) :
    let l := d.layoutBy measure
    (l.placed.map (·.link)).Perm d.links
      ∧ ∀ p ∈ l.placed, ∀ c ∈ ends l.anchors p.link,
        (∀ k < p.row, ∃ shown, (d.linesBy l)[height l.placed - (k + 1)]? = some shown
          ∧ (shown[c]? = some '|' ∨ shown[c]? = some '+'))
        ∧ (∃ shown, (d.linesBy l)[height l.placed]? = some shown ∧ shown[c]? = some '|')
        ∧ ∀ q ∈ l.placed, q.row < p.row →
          ¬ (column l.anchors q.link.left < c ∧ c < column l.anchors q.link.right) := by
  intro l
  refine ⟨map_link_perm measure d, fun p hp c hc => ⟨fun k hk => ?_, ?_, fun q hq hrow => ?_⟩⟩
  · refine ⟨_, getElem?_linesBy (hk.trans (lt_height hp)), ?_⟩
    rcases getElem?_drawRow_of_row_lt hplanar hp hk hc with hbar | hplus
    · exact .inl (Text.getElem?_dropTail hbar (by decide))
    · exact .inr (Text.getElem?_dropTail hplus (by decide))
  · have hlinks : d.links ≠ [] := List.ne_nil_of_mem (mem_links_of_mem_placed hp)
    exact ⟨_, getElem?_linesBy_bars hlinks,
      Text.getElem?_dropTail (getElem?_barRow hp hc) (by decide)⟩
  · exact not_within_of_row_lt hplanar hp hq hrow hc

theorem verticals_visible_thisIsATest :
    Planar thisIsATest ∧ ⟨⟨2, 4, "Os"⟩, 1⟩ ∈ thisIsATest.layout.placed
      ∧ 22 ∈ ends thisIsATest.layout.anchors ⟨2, 4, "Os"⟩
      ∧ (∃ shown, thisIsATest.textLines[height thisIsATest.layout.placed - 1]? = some shown
          ∧ (shown[22]? = some '|' ∨ shown[22]? = some '+'))
      ∧ ∃ shown, thisIsATest.textLines[height thisIsATest.layout.placed]? = some shown
          ∧ shown[22]? = some '|' := by
  obtain ⟨-, hvisible⟩ := verticals_visible Text.displayWidth thisIsATest planar_thisIsATest
  have hplaced : ⟨⟨2, 4, "Os"⟩, 1⟩ ∈ thisIsATest.layout.placed := by
    rw [layout_thisIsATest]
    decide
  have hends : 22 ∈ ends thisIsATest.layout.anchors ⟨2, 4, "Os"⟩ := by
    rw [layout_thisIsATest]
    decide
  obtain ⟨hrows, hbars, -⟩ := hvisible _ hplaced 22 hends
  exact ⟨planar_thisIsATest, hplaced, hends, hrows 0 Nat.one_pos, hbars⟩

end LinkageCheck.Diagram
