import LinkageCheck.Diagram.Layout
import LinkageCheck.Proofs.Traversal
import Mathlib.Data.List.GetD
import Mathlib.Data.List.Induction

/-! What the layout of a diagram guarantees: every row below the top holds a link, every anchor lies
inside the width, and words keep a gap between them. -/

namespace LinkageCheck.Diagram

/-! ### Adding links -/

def Within (words : Nat) (link : Link) : Prop := link.left < link.right ∧ link.right < words

instance (words : Nat) (link : Link) : Decidable (Within words link) :=
  inferInstanceAs (Decidable (_ ∧ _))

theorem addLink_eq_ok_iff {d d' : Diagram} {link : Link} :
    d.addLink link = .ok d' ↔ d'.words = d.words ∧ d'.links = d.links ++ [link] := by
  obtain ⟨words', links', valid'⟩ := d'
  rw [addLink]
  split
  · next h =>
    simp only [Except.ok.injEq, mk.injEq, eq_comm]
  · next h =>
    simp only [reduceCtorEq, false_iff]
    rintro ⟨rfl, rfl⟩
    exact h (valid' link (List.mem_append_right _ List.mem_cons_self))

/-- Links are accepted exactly if they make a diagram with the links there are, and every diagram
is made so from its words. -/
theorem addLinks_eq_ok_iff {d d' : Diagram} {links : List Link} :
    d.addLinks links = .ok d' ↔ d'.words = d.words ∧ d'.links = d.links ++ links := by
  induction links generalizing d with
  | nil =>
    obtain ⟨words, links, valid⟩ := d
    obtain ⟨words', links', valid'⟩ := d'
    simp only [addLinks, Except.ok.injEq, mk.injEq, List.append_nil, eq_comm]
  | cons link links ih =>
    rw [addLinks]
    rcases hnext : d.addLink link with e | next
    · show (Except.error e : Except InvalidLink Diagram) = .ok d' ↔ _
      simp only [reduceCtorEq, false_iff]
      rintro ⟨hwords, hlinks⟩
      have hvalid : link.left < link.right ∧ link.right < d.words.length := by
        rw [← hwords]
        apply d'.valid
        rw [hlinks]
        exact List.mem_append_right _ List.mem_cons_self
      rw [addLink, dif_pos hvalid] at hnext
      cases hnext
    · obtain ⟨hwords, hlinks⟩ := addLink_eq_ok_iff.mp hnext
      show next.addLinks links = .ok d' ↔ _
      rw [ih, hwords, hlinks, List.append_assoc, List.singleton_append]

theorem addLinks_eq_error_iff {d : Diagram} {links : List Link} {e : InvalidLink} :
    d.addLinks links = .error e ↔ ∃ before link after, links = before ++ link :: after
      ∧ (∀ b ∈ before, Within d.words.length b) ∧ ¬ Within d.words.length link
      ∧ e = ⟨link, d.words.length⟩ := by
  induction links generalizing d with
  | nil =>
    simp only [addLinks, exists_first_nil, reduceCtorEq]
  | cons link links ih =>
    rw [addLinks, bind_eq_error_iff, exists_first_cons]
    by_cases hlink : Within d.words.length link
    · have hnext : d.addLink link = .ok _ := dif_pos hlink
      simp only [hnext, hlink, Except.ok.injEq, exists_eq_left', ih, reduceCtorEq, false_or,
        not_true_eq_false, false_and, true_and]
    · have hnext : d.addLink link = .error _ := dif_neg hlink
      simp only [hnext, hlink, Except.error.injEq, reduceCtorEq, false_and, exists_false, or_false,
        not_false_eq_true, true_and, eq_comm]

/-! ### Rows -/

theorem mem_of_lt_firstFree {taken : List Nat} {row k : Nat} (h : row ≤ k)
    (hk : k < firstFree taken row) : k ∈ taken := by
  fun_induction firstFree taken row with
  | case1 taken row hmem ih =>
    rcases Nat.eq_or_lt_of_le h with rfl | hlt
    · exact hmem
    · exact List.mem_of_mem_erase (ih hlt hk)
  | case2 taken row hnot => exact absurd hk (Nat.not_lt.mpr h)

theorem foldl_max_le_iff {ns : List Nat} {a b : Nat} :
    ns.foldl max a ≤ b ↔ a ≤ b ∧ ∀ n ∈ ns, n ≤ b := by
  induction ns generalizing a with
  | nil => simp
  | cons n ns ih =>
    rw [List.foldl_cons, ih, List.forall_mem_cons]
    simp only [Nat.max_le, and_assoc]

theorem exists_of_lt_foldl_max {ns : List Nat} {a k : Nat} (h : k < ns.foldl max a) :
    k < a ∨ ∃ n ∈ ns, k < n := by
  induction ns generalizing a with
  | nil => exact .inl h
  | cons n ns ih =>
    rcases ih h with hmax | ⟨m, hm, hk⟩
    · have hside : k < a ∨ k < n := by omega
      rcases hside with ha | hn
      · exact .inl ha
      · exact .inr ⟨n, List.mem_cons_self, hn⟩
    · exact .inr ⟨m, List.mem_cons_of_mem _ hm, hk⟩

/-- Every row below a placed link holds a link. -/
def Filled (placed : List Placed) : Prop :=
  ∀ p ∈ placed, ∀ k < p.row, ∃ q ∈ placed, q.row = k

theorem filled_place {placed : List Placed} (h : Filled placed) (anchors : List Nat) (link : Link) :
    Filled (placed ++ [place anchors placed link]) := by
  have before : ∀ {k}, (∃ q ∈ placed, q.row = k) →
      ∃ q ∈ placed ++ [place anchors placed link], q.row = k := by
    rintro k ⟨q, hq, hrow⟩
    exact ⟨q, List.mem_append_left _ hq, hrow⟩
  intro p hp k hk
  rcases List.mem_append.mp hp with hp | hp
  · exact before (h p hp k hk)
  · obtain rfl := List.mem_singleton.mp hp
    apply before
    by_cases hbase :
        ((placed.filter (encloses link ·.link)).map (·.row + 1)).foldl max 0 ≤ k
    · -- between the links enclosed and the row found, every row is taken
      obtain ⟨q, hq, hrow⟩ := List.mem_map.mp (mem_of_lt_firstFree hbase hk)
      exact ⟨q, (List.mem_filter.mp hq).1, hrow⟩
    · rcases exists_of_lt_foldl_max (Nat.not_le.mp hbase) with hzero | ⟨n, hn, hkn⟩
      · exact absurd hzero (Nat.not_lt_zero k)
      · obtain ⟨q, hq, rfl⟩ := List.mem_map.mp hn
        have hq := (List.mem_filter.mp hq).1
        rcases Nat.eq_or_lt_of_le (Nat.lt_succ_iff.mp hkn) with rfl | hlt
        · exact ⟨q, hq, rfl⟩
        · exact h q hq k hlt

theorem placeAll_append_singleton (anchors : List Nat) (links : List Link) (link : Link) :
    placeAll anchors (links ++ [link])
      = placeAll anchors links ++ [place anchors (placeAll anchors links) link] := by
  rw [placeAll, List.foldl_append]
  rfl

theorem filled_placeAll (anchors : List Nat) (links : List Link) :
    Filled (placeAll anchors links) := by
  induction links using List.reverseRecOn with
  | nil => exact fun p hp => absurd hp List.not_mem_nil
  | append_singleton links link ih =>
    rw [placeAll_append_singleton]
    exact filled_place ih anchors link

theorem map_link_placeAll (anchors : List Nat) (links : List Link) :
    (placeAll anchors links).map (·.link) = links := by
  induction links using List.reverseRecOn with
  | nil => rfl
  | append_singleton links link ih =>
    rw [placeAll_append_singleton, List.map_append, ih]
    rfl

/-! ### Columns -/

theorem length_anchorsFrom (column : Nat) (widths gaps : List Nat) :
    (anchorsFrom column widths gaps).length = widths.length := by
  induction widths generalizing column gaps with
  | nil => rfl
  | cons width widths ih => rw [anchorsFrom, List.length_cons, ih, List.length_cons]

theorem le_of_mem_anchorsFrom {column a : Nat} {widths gaps : List Nat}
    (h : a ∈ anchorsFrom column widths gaps) : column ≤ a := by
  induction widths generalizing column gaps with
  | nil => exact absurd h List.not_mem_nil
  | cons width widths ih =>
    rcases List.mem_cons.mp h with rfl | h
    · exact Nat.le_add_right _ _
    · have := ih h
      omega

theorem lt_of_mem_anchorsFrom {column a : Nat} {widths gaps : List Nat}
    (h : a ∈ anchorsFrom column widths gaps) :
    a < (anchorsFrom column widths gaps).getLast?.elim 0 (· + 1) := by
  induction widths generalizing column gaps with
  | nil => exact absurd h List.not_mem_nil
  | cons width widths ih =>
    rw [anchorsFrom] at h ⊢
    rw [List.getLast?_cons]
    rcases hlast : (anchorsFrom (column + width + gaps.headD 0) widths gaps.tail).getLast?
      with _ | last
    · rw [List.getLast?_eq_none_iff.mp hlast] at h
      rw [List.mem_singleton.mp h]
      exact Nat.lt_succ_self _
    · have hmem := List.mem_of_getLast? hlast
      have hfrom := le_of_mem_anchorsFrom hmem
      simp only [Option.getD_some, Option.elim_some]
      rcases List.mem_cons.mp h with rfl | h
      · omega
      · have := ih h
        rw [hlast] at this
        exact this

/-! ### Gaps -/

theorem pos_of_mem_widen {widths gaps : List Nat} {link : Link} (h : ∀ g ∈ gaps, 0 < g) :
    ∀ g ∈ widen widths gaps link, 0 < g := by
  intro g hg
  obtain ⟨i, hi, rfl⟩ := List.getElem_of_mem hg
  rw [widen, List.length_modify] at hi
  have hold := h _ (List.getElem_mem hi)
  simp only [widen, List.getElem_modify]
  split
  · omega
  · exact hold

theorem foldl_widen_spec {widths gaps : List Nat} (links : List Link) (h : ∀ g ∈ gaps, 0 < g) :
    (links.foldl (widen widths) gaps).length = gaps.length
      ∧ ∀ g ∈ links.foldl (widen widths) gaps, 0 < g := by
  induction links generalizing gaps with
  | nil => exact ⟨rfl, h⟩
  | cons link links ih =>
    obtain ⟨hlength, hpos⟩ := ih (pos_of_mem_widen h)
    refine ⟨hlength.trans ?_, hpos⟩
    rw [widen, List.length_modify]

/-! ### The layout of a diagram -/

section LayoutBy

variable (measure : String → Nat) (d : Diagram)

theorem placed_eq : (d.layoutBy measure).placed =
    placeAll (d.layoutBy measure).anchors (placementOrder d.links) := rfl

theorem map_link_perm : ((d.layoutBy measure).placed.map (·.link)).Perm d.links := by
  rw [placed_eq, map_link_placeAll]
  exact List.mergeSort_perm _ _

theorem gaps_spec :
    (d.layoutBy measure).gaps.length = d.words.length - 1
      ∧ ∀ g ∈ (d.layoutBy measure).gaps, 0 < g := by
  have hstart : ∀ g ∈ List.replicate (d.words.length - 1) 1, 0 < g := by
    intro g hg
    rw [List.eq_of_mem_replicate hg]
    exact Nat.one_pos
  obtain ⟨hlength, hpos⟩ := foldl_widen_spec (placementOrder d.links) hstart
  exact ⟨hlength.trans List.length_replicate, hpos⟩

theorem length_anchors : (d.layoutBy measure).anchors.length = d.words.length := by
  rw [layoutBy, anchorColumns, length_anchorsFrom, List.length_map]

theorem anchor_lt_width {anchor : Nat} (h : anchor ∈ (d.layoutBy measure).anchors) :
    anchor < (d.layoutBy measure).width :=
  Nat.lt_of_lt_of_le (lt_of_mem_anchorsFrom h) (Nat.le_max_right _ _)

end LayoutBy

section Placed

variable {measure : String → Nat} {d : Diagram}

theorem mem_links_of_mem_placed {p : Placed} (h : p ∈ (d.layoutBy measure).placed) :
    p.link ∈ d.links := (map_link_perm measure d).mem_iff.mp (List.mem_map_of_mem h)

theorem placed_ne_nil (h : d.links ≠ []) : (d.layoutBy measure).placed ≠ [] := by
  intro hnil
  have hperm := map_link_perm measure d
  rw [hnil, List.map_nil] at hperm
  exact h hperm.nil_eq.symm

end Placed

theorem pairwise_anchorsFrom (column : Nat) {widths gaps : List Nat}
    (hlength : widths.length ≤ gaps.length + 1) (hpos : ∀ g ∈ gaps, 0 < g) :
    (anchorsFrom column widths gaps).Pairwise (· < ·) := by
  induction widths generalizing column gaps with
  | nil => exact .nil
  | cons width widths ih =>
    rw [anchorsFrom, List.pairwise_cons]
    cases gaps with
    | nil =>
      have hlast : widths = [] := List.length_eq_zero_iff.mp (by simpa using hlength)
      subst hlast
      exact ⟨fun a ha => absurd ha List.not_mem_nil, .nil⟩
    | cons gap gaps =>
      obtain ⟨hgap, hpos⟩ := List.forall_mem_cons.mp hpos
      rw [List.headD_cons, List.tail_cons]
      refine ⟨fun a ha => ?_, ih _ (by simpa using hlength) hpos⟩
      have hfrom := le_of_mem_anchorsFrom ha
      omega

theorem pairwise_anchors (measure : String → Nat) (d : Diagram) :
    (d.layoutBy measure).anchors.Pairwise (· < ·) := by
  obtain ⟨hlength, hpos⟩ := gaps_spec measure d
  apply pairwise_anchorsFrom 0 _ hpos
  rw [List.length_map]
  omega

/-! ### The columns of words -/

theorem getElem?_eq_column {anchors : List Nat} {word : Nat} (h : word < anchors.length) :
    anchors[word]? = some (column anchors word) := by
  rw [column, List.getD_eq_getElem _ _ h]
  exact List.getElem?_eq_getElem h

theorem column_mem {anchors : List Nat} {word : Nat} (h : word < anchors.length) :
    column anchors word ∈ anchors := List.mem_of_getElem? (getElem?_eq_column h)

theorem column_lt_column_of_pairwise {anchors : List Nat} (h : anchors.Pairwise (· < ·)) {i j : Nat}
    (hij : i < j) (hj : j < anchors.length) : column anchors i < column anchors j := by
  rw [column, column, List.getD_eq_getElem _ _ (Nat.lt_trans hij hj), List.getD_eq_getElem _ _ hj]
  exact List.pairwise_iff_getElem.mp h i j _ hj hij

section Words

variable (measure : String → Nat) (d : Diagram)

theorem column_lt_width {word : Nat} (h : word < d.words.length) :
    column (d.layoutBy measure).anchors word < (d.layoutBy measure).width := by
  rw [← length_anchors measure] at h
  exact anchor_lt_width measure d (column_mem h)

theorem column_lt_column {i j : Nat} (hij : i < j) (hj : j < d.words.length) :
    column (d.layoutBy measure).anchors i < column (d.layoutBy measure).anchors j := by
  rw [← length_anchors measure] at hj
  exact column_lt_column_of_pairwise (pairwise_anchors measure d) hij hj

end Words

end LinkageCheck.Diagram
