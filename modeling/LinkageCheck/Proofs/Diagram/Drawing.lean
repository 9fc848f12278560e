import LinkageCheck.Diagram.Drawing
import LinkageCheck.Proofs.Diagram.Layout
import LinkageCheck.Proofs.Text.Blank

/-! What the lines of a drawn diagram hold: no character but those of the drawing, the labels and
the words, and at least one of them wherever there is a link. -/

namespace LinkageCheck.Diagram

/-! ### Rows -/

theorem mem_overwrite {c : Char} {text : List Char} (row : List Char) (start : Nat)
    (h : c ∈ text) : c ∈ overwrite row start text :=
  List.mem_append_left _ (List.mem_append_right _ h)

theorem mem_or_mem_of_mem_overwrite {c : Char} {row text : List Char} {start : Nat}
    (h : c ∈ overwrite row start text) : c ∈ row ∨ c ∈ text := by
  rcases List.mem_append.mp h with h | h
  · rcases List.mem_append.mp h with h | h
    · exact .inl (List.mem_of_mem_take h)
    · exact .inr h
  · exact .inl (List.mem_of_mem_drop h)

theorem mem_linkText {c : Char} {free : Nat} {label : List Char} (h : c ∈ linkText free label) :
    c = '+' ∨ c = '-' ∨ c ∈ label := by
  simp only [linkText, List.mem_append, List.mem_cons, List.mem_replicate, List.not_mem_nil,
    or_false] at h
  rcases h with (((rfl | ⟨-, rfl⟩) | h) | ⟨-, rfl⟩) | rfl
  · exact .inl rfl
  · exact .inr (.inl rfl)
  · exact .inr (.inr h)
  · exact .inr (.inl rfl)
  · exact .inl rfl

theorem mem_drawVertical {c : Char} {row : List Char} (column : Nat) (h : c ∈ row)
    (hc : c ≠ ' ') : c ∈ drawVertical row column := by
  obtain ⟨i, hi, rfl⟩ := List.getElem_of_mem h
  have hlength : i < (drawVertical row column).length := by
    rw [drawVertical, List.length_modify]
    exact hi
  refine List.mem_iff_getElem.mpr ⟨i, hlength, ?_⟩
  simp only [drawVertical, List.getElem_modify, hc, if_false, ite_self]

theorem mem_or_eq_of_mem_drawVertical {c : Char} {row : List Char} {column : Nat}
    (h : c ∈ drawVertical row column) : c ∈ row ∨ c = '|' := by
  obtain ⟨i, hi, rfl⟩ := List.getElem_of_mem h
  have hlength : i < row.length := by
    rwa [drawVertical, List.length_modify] at hi
  simp only [drawVertical, List.getElem_modify]
  split
  · split
    · exact .inr rfl
    · exact .inl (List.getElem_mem hlength)
  · exact .inl (List.getElem_mem hlength)

theorem mem_foldl_drawVertical {c : Char} {row : List Char} (columns : List Nat) (h : c ∈ row)
    (hc : c ≠ ' ') : c ∈ columns.foldl drawVertical row := by
  induction columns generalizing row with
  | nil => exact h
  | cons column columns ih => exact ih (mem_drawVertical column h hc)

theorem mem_or_eq_of_mem_foldl {c : Char} {row : List Char} {columns : List Nat}
    (h : c ∈ columns.foldl drawVertical row) : c ∈ row ∨ c = '|' := by
  induction columns generalizing row with
  | nil => exact .inl h
  | cons column columns ih =>
    rcases ih h with h | h
    · exact mem_or_eq_of_mem_drawVertical h
    · exact .inr h

theorem plus_mem_foldl_drawLink (anchors : List Nat) (row : List Char) {own : List Placed}
    (h : own ≠ []) : '+' ∈ own.foldl (fun row p => drawLink anchors row p.link) row := by
  rcases List.eq_nil_or_concat own with rfl | ⟨init, last, rfl⟩
  · exact absurd rfl h
  · rw [List.concat_eq_append, List.foldl_append]
    exact mem_overwrite _ _ List.mem_cons_self

theorem plus_mem_drawRow {l : Layout} {k : Nat} (h : ∃ p ∈ l.placed, p.row = k) :
    '+' ∈ drawRow l k := by
  obtain ⟨p, hp, hrow⟩ := h
  have hown : p ∈ l.placed.filter (·.row == k) :=
    List.mem_filter.mpr ⟨hp, by rw [hrow]; exact BEq.rfl⟩
  exact mem_foldl_drawVertical _ (plus_mem_foldl_drawLink _ _ (List.ne_nil_of_mem hown)) (by decide)

def Drawn (placed : List Placed) (c : Char) : Prop :=
  c = ' ' ∨ c = '+' ∨ c = '-' ∨ c = '|' ∨ ∃ p ∈ placed, c ∈ p.link.label.toList

theorem drawn_of_mem_foldl_drawLink {anchors : List Nat} {own placed : List Placed}
    (hown : ∀ p ∈ own, p ∈ placed) {row : List Char} (hrow : ∀ c ∈ row, Drawn placed c) :
    ∀ c ∈ own.foldl (fun row p => drawLink anchors row p.link) row, Drawn placed c := by
  induction own generalizing row with
  | nil => exact hrow
  | cons p own ih =>
    obtain ⟨hp, hown⟩ := List.forall_mem_cons.mp hown
    refine ih hown fun c hc => ?_
    rcases mem_or_mem_of_mem_overwrite hc with hc | hc
    · exact hrow c hc
    · rcases mem_linkText hc with rfl | rfl | hlabel
      · exact .inr (.inl rfl)
      · exact .inr (.inr (.inl rfl))
      · exact .inr (.inr (.inr (.inr ⟨p, hp, hlabel⟩)))

theorem drawn_of_mem_drawRow {l : Layout} {k : Nat} {c : Char} (h : c ∈ drawRow l k) :
    Drawn l.placed c := by
  rcases mem_or_eq_of_mem_foldl h with h | rfl
  · refine drawn_of_mem_foldl_drawLink (fun p hp => (List.mem_filter.mp hp).1) (fun d hd => ?_) c h
    exact .inl (List.eq_of_mem_replicate hd)
  · exact .inr (.inr (.inr (.inl rfl)))

theorem exists_row {placed : List Placed} (hfilled : Filled placed) {k : Nat}
    (hk : k < height placed) : ∃ p ∈ placed, p.row = k := by
  rcases exists_of_lt_foldl_max hk with hzero | ⟨n, hn, hkn⟩
  · exact absurd hzero (Nat.not_lt_zero k)
  · obtain ⟨p, hp, rfl⟩ := List.mem_map.mp hn
    rcases Nat.eq_or_lt_of_le (Nat.lt_succ_iff.mp hkn) with rfl | hlt
    · exact ⟨p, hp, rfl⟩
    · exact hfilled p hp k hlt

/-! ### Bars and words -/

theorem bar_mem_drawVertical {width column : Nat} (h : column < width) :
    '|' ∈ drawVertical (blankRow width) column := by
  have hlength : column < (drawVertical (blankRow width) column).length := by
    rw [drawVertical, List.length_modify, blankRow, List.length_replicate]
    exact h
  refine List.mem_iff_getElem.mpr ⟨column, hlength, ?_⟩
  simp only [drawVertical, blankRow, List.getElem_modify, List.getElem_replicate, if_true]

variable {measure : String → Nat} {d : Diagram}

theorem bar_mem_barRow (h : d.links ≠ []) : '|' ∈ barRow (d.layoutBy measure) := by
  rcases hplaced : (d.layoutBy measure).placed with _ | ⟨p, placed⟩
  · exact absurd hplaced (placed_ne_nil h)
  · have hp : p ∈ (d.layoutBy measure).placed := by
      rw [hplaced]
      exact List.mem_cons_self
    obtain ⟨hleft, hright⟩ := d.valid _ (mem_links_of_mem_placed hp)
    have hcolumn := column_lt_width measure d (Nat.lt_trans hleft hright)
    rw [barRow, hplaced, List.flatMap_cons, ends, List.cons_append, List.foldl_cons]
    exact mem_foldl_drawVertical _ (bar_mem_drawVertical hcolumn) (by decide)

theorem mem_wordLine {c : Char} {words : List (List Char)} {gaps : List Nat}
    (h : c ∈ wordLine words gaps) : c = ' ' ∨ ∃ word ∈ words, c ∈ word := by
  fun_induction wordLine words gaps with
  | case1 => exact absurd h List.not_mem_nil
  | case2 word gaps => exact .inr ⟨word, List.mem_cons_self, h⟩
  | case3 word words gaps hwords ih =>
    rcases List.mem_append.mp h with h | h
    · rcases List.mem_append.mp h with h | h
      · exact .inr ⟨word, List.mem_cons_self, h⟩
      · exact .inl (List.eq_of_mem_replicate h)
    · rcases ih h with h | ⟨later, hlater, h⟩
      · exact .inl h
      · exact .inr ⟨later, List.mem_cons_of_mem _ hlater, h⟩

theorem wordLine_ne_nil (h : 2 ≤ d.words.length) :
    wordLine (d.words.map String.toList) (d.layoutBy measure).gaps ≠ [] := by
  obtain ⟨hlength, hpos⟩ := gaps_spec measure d
  rcases hwords : d.words with _ | ⟨a, _ | ⟨b, words⟩⟩
  · rw [hwords] at h
    exact absurd h (Nat.not_succ_le_zero 1)
  · rw [hwords] at h
    exact absurd h (Nat.not_succ_le_self 1)
  · rcases hgaps : (d.layoutBy measure).gaps with _ | ⟨gap, gaps⟩
    · rw [hgaps, hwords] at hlength
      simp at hlength
    · have hgap : 0 < gap := hpos gap (by rw [hgaps]; exact List.mem_cons_self)
      rw [List.map_cons, List.map_cons, wordLine]
      · intro hnil
        have hblank := (List.append_eq_nil_iff.mp (List.append_eq_nil_iff.mp hnil).1).2
        rw [List.headD_cons, blankRow, List.replicate_eq_nil_iff] at hblank
        omega
      · exact List.cons_ne_nil _ _

/-! ### All lines -/

def Unbroken (text : String) : Prop := '\n' ∉ text.toList ∧ '\r' ∉ text.toList

instance (text : String) : Decidable (Unbroken text) := inferInstanceAs (Decidable (_ ∧ _))

theorem Unbroken.of_mem {text : String} (h : Unbroken text) {c : Char} (hc : c ∈ text.toList) :
    c ≠ '\n' ∧ c ≠ '\r' := by
  constructor
  · rintro rfl
    exact h.1 hc
  · rintro rfl
    exact h.2 hc

def Plain (d : Diagram) : Prop :=
  (∀ word ∈ d.words, Unbroken word) ∧ ∀ link ∈ d.links, Unbroken link.label

instance (d : Diagram) : Decidable d.Plain := inferInstanceAs (Decidable (_ ∧ _))

theorem Plain.of_drawn (h : d.Plain) {c : Char} (hc : Drawn (d.layoutBy measure).placed c) :
    c ≠ '\n' ∧ c ≠ '\r' := by
  rcases hc with rfl | rfl | rfl | rfl | ⟨p, hp, hlabel⟩
  · decide
  · decide
  · decide
  · decide
  · exact (h.2 _ (mem_links_of_mem_placed hp)).of_mem hlabel

theorem Plain.of_mem_linesBy (h : d.Plain) {line : List Char}
    (hline : line ∈ d.linesBy (d.layoutBy measure)) {c : Char} (hc : c ∈ line) :
    c ≠ '\n' ∧ c ≠ '\r' := by
  rw [linesBy] at hline
  rcases List.mem_append.mp hline with hline | hline
  · rcases List.mem_append.mp hline with hline | hline
    · obtain ⟨k, -, rfl⟩ := List.mem_map.mp hline
      exact h.of_drawn (drawn_of_mem_drawRow (Text.mem_of_mem_dropTail hc))
    · split at hline
      · exact absurd hline List.not_mem_nil
      · obtain rfl := List.mem_singleton.mp hline
        rcases mem_or_eq_of_mem_foldl (Text.mem_of_mem_dropTail hc) with hc | rfl
        · rw [List.eq_of_mem_replicate hc]
          decide
        · decide
  · obtain rfl := List.mem_singleton.mp hline
    rcases mem_wordLine hc with rfl | ⟨word, hword, hc⟩
    · decide
    · obtain ⟨text, htext, rfl⟩ := List.mem_map.mp hword
      exact (h.1 text htext).of_mem hc

theorem linesBy_ne_nil (measure : String → Nat) (d : Diagram) :
    d.linesBy (d.layoutBy measure) = [[]] ∨
      ∀ line ∈ d.linesBy (d.layoutBy measure), line ≠ [] := by
  by_cases hlinks : d.links = []
  · have hplaced : (d.layoutBy measure).placed = [] := by
      have hperm := map_link_perm measure d
      rw [hlinks] at hperm
      exact List.map_eq_nil_iff.mp hperm.eq_nil
    have hlines : d.linesBy (d.layoutBy measure) =
        [wordLine (d.words.map String.toList) (d.layoutBy measure).gaps] := by
      rw [linesBy, hplaced, hlinks]
      rfl
    rw [hlines]
    by_cases hempty : wordLine (d.words.map String.toList) (d.layoutBy measure).gaps = []
    · rw [hempty]
      exact .inl rfl
    · exact .inr (List.forall_mem_singleton.mpr hempty)
  · have hwords : 2 ≤ d.words.length := by
      obtain ⟨link, links, hcons⟩ := List.exists_cons_of_ne_nil hlinks
      obtain ⟨hleft, hright⟩ := d.valid link (by rw [hcons]; exact List.mem_cons_self)
      omega
    refine .inr fun line hline => ?_
    rw [linesBy] at hline
    rcases List.mem_append.mp hline with hline | hline
    · rcases List.mem_append.mp hline with hline | hline
      · obtain ⟨k, hk, rfl⟩ := List.mem_map.mp hline
        have hk := List.mem_range.mp (List.mem_reverse.mp hk)
        have hfilled : Filled (d.layoutBy measure).placed := filled_placeAll _ _
        have hplus : '+' ∈ drawRow (d.layoutBy measure) k :=
          plus_mem_drawRow (exists_row hfilled hk)
        exact List.ne_nil_of_mem (Text.mem_dropTail hplus (by decide))
      · split at hline
        · exact absurd hline List.not_mem_nil
        · obtain rfl := List.mem_singleton.mp hline
          exact List.ne_nil_of_mem (Text.mem_dropTail (bar_mem_barRow hlinks) (by decide))
    · obtain rfl := List.mem_singleton.mp hline
      exact wordLine_ne_nil hwords

end LinkageCheck.Diagram
