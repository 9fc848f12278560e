import LinkageCheck.Proofs.Diagram.Layout

/-! Widening the gaps of a diagram: a gap moves the anchors on its right and no others, so that no
link loses columns, and in the end every label fits between the two ends of its link. -/

namespace LinkageCheck.Diagram

variable {widths gaps : List Nat}

/-! ### One gap -/

theorem anchorsFrom_add (start n : Nat) (widths gaps : List Nat) :
    anchorsFrom (start + n) widths gaps = (anchorsFrom start widths gaps).map (· + n) := by
  induction widths generalizing start gaps with
  | nil => rfl
  | cons width widths ih =>
    rw [anchorsFrom, anchorsFrom, List.map_cons, ← ih]
    congr 1
    · omega
    · congr 1
      omega

theorem column_anchorsFrom_add {start n word : Nat} (h : word < widths.length) :
    column (anchorsFrom (start + n) widths gaps) word
      = column (anchorsFrom start widths gaps) word + n := by
  have hword : word < (anchorsFrom start widths gaps).length := by
    rwa [length_anchorsFrom]
  rw [anchorsFrom_add, column, column, List.getD_eq_getElem _ _ hword,
    List.getD_eq_getElem _ _ (by rwa [List.length_map]), List.getElem_map]

theorem column_anchorsFrom_modify {start gap n word : Nat} (hgap : gap < gaps.length)
    (hword : word < widths.length) :
    column (anchorsFrom start widths (gaps.modify gap (· + n))) word
      = column (anchorsFrom start widths gaps) word + if gap < word then n else 0 := by
  induction widths generalizing start gaps gap word with
  | nil => exact absurd hword (Nat.not_lt_zero word)
  | cons width widths ih =>
    rcases gaps with _ | ⟨g, gaps⟩
    · exact absurd hgap (Nat.not_lt_zero gap)
    rcases word with _ | word
    · rfl
    have hword := Nat.lt_of_succ_lt_succ hword
    rcases gap with _ | gap
    · -- the gap right behind the first word moves all others
      rw [if_pos (Nat.succ_pos word)]
      show column (anchorsFrom (start + width + (g + n)) widths gaps) word
        = column (anchorsFrom (start + width + g) widths gaps) word + n
      rw [← Nat.add_assoc, column_anchorsFrom_add hword]
    · show column (anchorsFrom (start + width + g) widths (gaps.modify gap (· + n))) word
        = column (anchorsFrom (start + width + g) widths gaps) word
          + if gap + 1 < word + 1 then n else 0
      rw [ih (Nat.lt_of_succ_lt_succ hgap) hword]
      simp only [Nat.add_lt_add_iff_right]

/-! ### One link -/

variable {a b : Link}

theorem column_widen (hlength : gaps.length = widths.length - 1) (ha : Within widths.length a)
    {word : Nat} (hword : word < widths.length) :
    column (anchorColumns widths (widen widths gaps a)) word
      = column (anchorColumns widths gaps) word
        + if a.right ≤ word then a.label.length - interior (anchorColumns widths gaps) a
          else 0 := by
  obtain ⟨horder, hright⟩ := ha
  have hgap : a.right - 1 < gaps.length := by omega
  have hbehind : a.right - 1 < word ↔ a.right ≤ word := by omega
  rw [widen, anchorColumns, column_anchorsFrom_modify hgap hword]
  simp only [hbehind]
  rfl

theorem interior_le_interior_widen (hlength : gaps.length = widths.length - 1)
    (ha : Within widths.length a) (hb : Within widths.length b) :
    interior (anchorColumns widths gaps) b
      ≤ interior (anchorColumns widths (widen widths gaps a)) b := by
  obtain ⟨hborder, hbright⟩ := hb
  simp only [interior, column_widen hlength ha hbright,
    column_widen hlength ha (Nat.lt_trans hborder hbright)]
  split <;> split <;> omega

theorem length_label_le_interior_widen (hlength : gaps.length = widths.length - 1)
    (hpos : ∀ g ∈ gaps, 0 < g) (ha : Within widths.length a) :
    a.label.length ≤ interior (anchorColumns widths (widen widths gaps a)) a := by
  obtain ⟨horder, hright⟩ := ha
  have hleft := Nat.lt_trans horder hright
  have hordered : (anchorColumns widths gaps).Pairwise (· < ·) :=
    pairwise_anchorsFrom 0 (by omega) hpos
  have hanchors : a.right < (anchorColumns widths gaps).length := by
    rwa [anchorColumns, length_anchorsFrom]
  have hcolumns := column_lt_column_of_pairwise hordered horder hanchors
  rw [interior, column_widen hlength ⟨horder, hright⟩ hright,
    column_widen hlength ⟨horder, hright⟩ hleft, if_pos (Nat.le_refl _),
    if_neg (Nat.not_le.mpr horder)]
  rw [interior]
  omega

/-! ### All links -/

theorem length_label_le_interior_foldl {links : List Link}
    (hlinks : ∀ link ∈ links, Within widths.length link)
    (hlength : gaps.length = widths.length - 1) (hpos : ∀ g ∈ gaps, 0 < g) :
    ∀ link ∈ links, link.label.length
      ≤ interior (anchorColumns widths (links.foldl (widen widths) gaps)) link := by
  induction links using List.reverseRecOn with
  | nil => exact fun link h => absurd h List.not_mem_nil
  | append_singleton links last ih =>
    have hbefore : ∀ link ∈ links, Within widths.length link :=
      fun link h => hlinks link (List.mem_append_left _ h)
    have hlast : Within widths.length last :=
      hlinks last (List.mem_append_right _ List.mem_cons_self)
    obtain ⟨hkept, hgaps⟩ := foldl_widen_spec links hpos
    rw [List.foldl_append]
    intro link h
    rcases List.mem_append.mp h with h | h
    · exact Nat.le_trans (ih hbefore link h)
        (interior_le_interior_widen (hkept.trans hlength) hlast (hbefore link h))
    · obtain rfl := List.mem_singleton.mp h
      exact length_label_le_interior_widen (hkept.trans hlength) hgaps hlast

section LayoutBy

variable (measure : String → Nat) (d : Diagram) {link : Link}

theorem length_label_le_interior (h : link ∈ d.links) :
    link.label.length ≤ interior (d.layoutBy measure).anchors link := by
  have hwords : (d.words.map measure).length = d.words.length := List.length_map _
  apply length_label_le_interior_foldl
  · intro link h
    rw [hwords]
    exact d.valid link (List.mem_mergeSort.mp h)
  · rw [hwords, List.length_replicate]
  · intro g hg
    rw [List.eq_of_mem_replicate hg]
    exact Nat.one_pos
  · exact List.mem_mergeSort.mpr h

theorem column_add_label_lt_column (h : link ∈ d.links) :
    column (d.layoutBy measure).anchors link.left + link.label.length
      < column (d.layoutBy measure).anchors link.right := by
  obtain ⟨horder, hright⟩ := d.valid link h
  rw [← length_anchors measure] at hright
  have hcolumns :=
    column_lt_column_of_pairwise (pairwise_anchors measure d) horder hright
  have hlabel := length_label_le_interior measure d h
  rw [interior] at hlabel
  omega

end LayoutBy

end LinkageCheck.Diagram
