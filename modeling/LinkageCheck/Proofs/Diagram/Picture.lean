import LinkageCheck.Proofs.Diagram.Rows
import LinkageCheck.Proofs.Diagram.Widening

/-! What each row of a drawn diagram shows, cell by cell: its own links intact, verticals under the
ends of the links above it, and blanks. The order in which links are drawn does not show. -/

namespace LinkageCheck.Diagram

variable {anchors : List Nat} {row : List Char} {link a b : Link}

/-! ### Writing over a row -/

theorem length_overwrite {start : Nat} {text : List Char} (h : start + text.length ≤ row.length) :
    (overwrite row start text).length = row.length := by
  simp only [overwrite, List.length_append, List.length_take, List.length_drop]
  omega

theorem getElem?_overwrite {start : Nat} {text : List Char} (h : start + text.length ≤ row.length)
    (c : Nat) :
    (overwrite row start text)[c]?
      = if start ≤ c ∧ c < start + text.length then text[c - start]? else row[c]? := by
  have hstart : (row.take start).length = start := by
    rw [List.length_take]
    omega
  rw [overwrite, List.append_assoc, List.getElem?_append, List.getElem?_append, hstart]
  by_cases hbefore : c < start
  · rw [if_pos hbefore, if_neg (by omega), List.getElem?_take_of_lt hbefore]
  · rw [if_neg hbefore]
    by_cases htext : c - start < text.length
    · rw [if_pos htext, if_pos (by omega)]
    · rw [if_neg htext, if_neg (by omega), List.getElem?_drop]
      congr 1
      omega

theorem getElem?_drawVertical (row : List Char) (column c : Nat) :
    (drawVertical row column)[c]?
      = row[c]?.map fun x => if x = ' ' ∧ c = column then '|' else x := by
  rw [drawVertical, List.getElem?_modify, Option.map_eq_map]
  congr 1
  funext x
  by_cases hc : column = c
  · simp only [hc, if_true, and_true]
  · simp only [hc, if_false, Ne.symm hc, and_false]

theorem getElem?_foldl_drawVertical (columns : List Nat) (row : List Char) (c : Nat) :
    (columns.foldl drawVertical row)[c]?
      = row[c]?.map fun x => if x = ' ' ∧ c ∈ columns then '|' else x := by
  induction columns generalizing row with
  | nil => simp
  | cons column columns ih =>
    rw [List.foldl_cons, ih, getElem?_drawVertical, Option.map_map]
    congr 1
    funext x
    rw [Function.comp_apply]
    by_cases hblank : x = ' '
    · by_cases hc : c = column <;> simp [hblank, hc]
    · simp [hblank]

theorem length_drawVertical (row : List Char) (column : Nat) :
    (drawVertical row column).length = row.length := List.length_modify _ _ _

theorem length_foldl_drawVertical (columns : List Nat) (row : List Char) :
    (columns.foldl drawVertical row).length = row.length := by
  induction columns generalizing row with
  | nil => rfl
  | cons column columns ih => rw [List.foldl_cons, ih, length_drawVertical]

/-! ### One link -/

def Covers (anchors : List Nat) (link : Link) (c : Nat) : Prop :=
  column anchors link.left ≤ c ∧ c ≤ column anchors link.right

instance (c : Nat) : Decidable (Covers anchors link c) := inferInstanceAs (Decidable (_ ∧ _))

/-- Where the label of a link begins when half of the free columns, rounded down, are left of it. -/
def labelColumn (anchors : List Nat) (link : Link) : Nat :=
  column anchors link.left + 1 + (interior anchors link - link.label.length) / 2

/-- The row shows the link from one end to the other. -/
structure ShowsLink (anchors : List Nat) (row : List Char) (link : Link) : Prop where
  fits : column anchors link.left + link.label.length < column anchors link.right
  left : row[column anchors link.left]? = some '+'
  right : row[column anchors link.right]? = some '+'
  label : ∀ i < link.label.length,
    row[labelColumn anchors link + i]? = link.label.toList[i]?
  dashes : ∀ c, column anchors link.left < c → c < column anchors link.right →
    (c < labelColumn anchors link ∨ labelColumn anchors link + link.label.length ≤ c) →
    row[c]? = some '-'

theorem labelColumn_bounds
    (h : column anchors link.left + link.label.length < column anchors link.right) :
    column anchors link.left < labelColumn anchors link
      ∧ labelColumn anchors link + link.label.length ≤ column anchors link.right := by
  rw [labelColumn, interior]
  omega

theorem Covers.cases {c : Nat} (hc : Covers anchors link c) :
    c = column anchors link.left ∨ c = column anchors link.right
      ∨ (∃ i < link.label.length, c = labelColumn anchors link + i)
      ∨ column anchors link.left < c ∧ c < column anchors link.right
        ∧ (c < labelColumn anchors link ∨ labelColumn anchors link + link.label.length ≤ c) := by
  obtain ⟨hleft, hright⟩ := hc
  by_cases hlabel : labelColumn anchors link ≤ c ∧ c < labelColumn anchors link + link.label.length
  · exact .inr (.inr (.inl ⟨c - labelColumn anchors link, by omega, by omega⟩))
  · omega

theorem ShowsLink.ne_blank (h : ShowsLink anchors row link) (hlabel : ' ' ∉ link.label.toList)
    {c : Nat} (hc : Covers anchors link c) : row[c]? ≠ some ' ' := by
  rcases hc.cases with rfl | rfl | ⟨i, hi, rfl⟩ | ⟨hleft, hright, hdash⟩
  · rw [h.left]
    decide
  · rw [h.right]
    decide
  · rw [h.label i hi]
    exact fun hblank => hlabel (List.mem_of_getElem? hblank)
  · rw [h.dashes c hleft hright hdash]
    decide

theorem ShowsLink.agrees {row' : List Char} (h : ShowsLink anchors row link)
    (h' : ShowsLink anchors row' link) {c : Nat} (hc : Covers anchors link c) :
    row[c]? = row'[c]? := by
  rcases hc.cases with rfl | rfl | ⟨i, hi, rfl⟩ | ⟨hleft, hright, hdash⟩
  · rw [h.left, h'.left]
  · rw [h.right, h'.right]
  · rw [h.label i hi, h'.label i hi]
  · rw [h.dashes c hleft hright hdash, h'.dashes c hleft hright hdash]

theorem ShowsLink.congr {row' : List Char} (h : ShowsLink anchors row link)
    (hcells : ∀ c, Covers anchors link c → row'[c]? = row[c]?) : ShowsLink anchors row' link := by
  obtain ⟨hbegin, hend⟩ := labelColumn_bounds h.fits
  have horder := Nat.lt_of_le_of_lt (Nat.le_add_right _ _) h.fits
  refine ⟨h.fits, ?_, ?_, fun i hi => ?_, fun c hleft hright hlabel => ?_⟩
  · rw [hcells _ ⟨Nat.le_refl _, horder.le⟩, h.left]
  · rw [hcells _ ⟨horder.le, Nat.le_refl _⟩, h.right]
  · rw [hcells _ ⟨by omega, by omega⟩, h.label i hi]
  · rw [hcells _ ⟨hleft.le, hright.le⟩, h.dashes c hleft hright hlabel]

theorem length_linkText {free : Nat} {label : List Char} (h : label.length ≤ free) :
    (linkText free label).length = free + 2 := by
  simp only [linkText, List.length_append, List.length_cons, List.length_replicate,
    List.length_nil]
  omega

theorem getElem?_linkText {free : Nat} {label : List Char} (h : label.length ≤ free) {i : Nat}
    (hi : i ≤ free + 1) :
    (linkText free label)[i]? =
      if i = 0 ∨ i = free + 1 then some '+'
      else if i < 1 + (free - label.length) / 2
          ∨ 1 + (free - label.length) / 2 + label.length ≤ i then some '-'
      else label[i - (1 + (free - label.length) / 2)]? := by
  generalize hfill : (free - label.length) / 2 = fill
  have hparts : linkText free label = ['+'] ++ (List.replicate fill '-' ++ (label
      ++ (List.replicate (free - label.length - fill) '-' ++ ['+']))) := by
    simp only [linkText, hfill, List.cons_append, List.nil_append, List.append_assoc]
  rw [hparts]
  simp only [List.getElem?_append, List.length_replicate, List.length_singleton,
    List.getElem?_replicate]
  split_ifs <;> grind

section DrawLink

variable (hfits : column anchors link.left + link.label.length < column anchors link.right)
  (hinside : column anchors link.right < row.length)

include hfits

theorem length_linkText_interior :
    (linkText (interior anchors link) link.label.toList).length
      = column anchors link.right - column anchors link.left + 1 := by
  rw [length_linkText]
  · rw [interior]
    omega
  · rw [String.length_toList, interior]
    omega

include hinside

theorem length_drawLink : (drawLink anchors row link).length = row.length := by
  apply length_overwrite
  rw [length_linkText_interior hfits]
  omega

theorem getElem?_drawLink_of_not_covers {c : Nat} (hc : ¬ Covers anchors link c) :
    (drawLink anchors row link)[c]? = row[c]? := by
  have hlength := length_linkText_interior hfits
  rw [Covers] at hc
  rw [drawLink, getElem?_overwrite (by omega), if_neg (by omega)]

theorem getElem?_drawLink_of_covers {c : Nat} (hc : Covers anchors link c) :
    (drawLink anchors row link)[c]? =
      if c = column anchors link.left ∨ c = column anchors link.right then some '+'
      else if c < labelColumn anchors link ∨ labelColumn anchors link + link.label.length ≤ c then
        some '-'
      else link.label.toList[c - labelColumn anchors link]? := by
  obtain ⟨hleft, hright⟩ := hc
  have hlength := length_linkText_interior hfits
  have hfree : interior anchors link = column anchors link.right - column anchors link.left - 1 :=
    rfl
  rw [drawLink, getElem?_overwrite (by omega), if_pos (by omega),
    getElem?_linkText (by rw [String.length_toList]; omega) (by omega), String.length_toList,
    labelColumn]
  generalize (interior anchors link - link.label.length) / 2 = fill
  rw [Nat.sub_sub, Nat.add_assoc (column anchors link.left)]
  congr 1
  · rw [eq_iff_iff]
    omega
  · congr 1
    rw [eq_iff_iff]
    omega

theorem showsLink_drawLink : ShowsLink anchors (drawLink anchors row link) link := by
  obtain ⟨hbegin, hend⟩ := labelColumn_bounds hfits
  have hcell := fun c => getElem?_drawLink_of_covers (c := c) hfits hinside
  refine ⟨hfits, ?_, ?_, fun i hi => ?_, fun c hleft hright hlabel => ?_⟩
  · rw [hcell _ ⟨Nat.le_refl _, by omega⟩, if_pos (.inl rfl)]
  · rw [hcell _ ⟨by omega, Nat.le_refl _⟩, if_pos (.inr rfl)]
  · rw [hcell _ ⟨by omega, by omega⟩, if_neg (by omega), if_neg (by omega), Nat.add_sub_cancel_left]
  · rw [hcell _ ⟨hleft.le, hright.le⟩, if_neg (by omega), if_pos hlabel]

/-- A link that lies beside another one leaves it intact: at most they share an end. -/
theorem ShowsLink.drawLink (ha : ShowsLink anchors row a)
    (hapart : overlaps anchors link a = false) :
    ShowsLink anchors (drawLink anchors row link) a := by
  apply ha.congr
  intro c hc
  by_cases hlink : Covers anchors link c
  · have hbeside : column anchors a.right ≤ column anchors link.left
        ∨ column anchors link.right ≤ column anchors a.left := by
      simp only [overlaps, Bool.and_eq_false_iff, decide_eq_false_iff_not] at hapart
      omega
    obtain ⟨haleft, haright⟩ := hc
    obtain ⟨hleft, hright⟩ := hlink
    rw [getElem?_drawLink_of_covers hfits hinside ⟨hleft, hright⟩]
    rcases hbeside with hbeside | hbeside
    · obtain rfl : c = column anchors a.right := by omega
      rw [if_pos (.inl (by omega)), ha.right]
    · obtain rfl : c = column anchors a.left := by omega
      rw [if_pos (.inr (by omega)), ha.left]
  · exact getElem?_drawLink_of_not_covers hfits hinside hlink

end DrawLink

/-! ### The links of one row -/

def drawLinks (anchors : List Nat) (row : List Char) (own : List Placed) : List Char :=
  own.foldl (fun row p => drawLink anchors row p.link) row

theorem drawLinks_append_singleton (own : List Placed) (p : Placed) :
    drawLinks anchors row (own ++ [p]) = drawLink anchors (drawLinks anchors row own) p.link := by
  rw [drawLinks, List.foldl_append]
  rfl

section DrawLinks

variable {own : List Placed}
  (hfits : ∀ p ∈ own,
    column anchors p.link.left + p.link.label.length < column anchors p.link.right)
  (hinside : ∀ p ∈ own, column anchors p.link.right < row.length)

include hfits hinside

theorem length_drawLinks : (drawLinks anchors row own).length = row.length := by
  induction own using List.reverseRecOn with
  | nil => rfl
  | append_singleton own last ih =>
    obtain ⟨hfits, hlastFits⟩ := List.forall_mem_append.mp hfits
    obtain ⟨hinside, hlastInside⟩ := List.forall_mem_append.mp hinside
    have hlength := ih hfits hinside
    have hlastInside := hlastInside last List.mem_cons_self
    rw [← hlength] at hlastInside
    rw [drawLinks_append_singleton,
      length_drawLink (hlastFits last List.mem_cons_self) hlastInside, hlength]

theorem drawLinks_spec (hapart : own.Pairwise fun p q => overlaps anchors q.link p.link = false) :
    (∀ p ∈ own, ShowsLink anchors (drawLinks anchors row own) p.link)
      ∧ ∀ c, (∀ p ∈ own, ¬ Covers anchors p.link c) →
          (drawLinks anchors row own)[c]? = row[c]? := by
  induction own using List.reverseRecOn with
  | nil => exact ⟨fun p hp => absurd hp List.not_mem_nil, fun c _ => rfl⟩
  | append_singleton own last ih =>
    obtain ⟨hbefore, -, hlast⟩ := List.pairwise_append.mp hapart
    have hlast : ∀ p ∈ own, overlaps anchors last.link p.link = false :=
      fun p hp => hlast p hp last List.mem_cons_self
    obtain ⟨hfits, hlastFits⟩ := List.forall_mem_append.mp hfits
    obtain ⟨hinside, hlastInside⟩ := List.forall_mem_append.mp hinside
    have hlastFits := hlastFits last List.mem_cons_self
    have hlastInside := hlastInside last List.mem_cons_self
    obtain ⟨hshown, hclear⟩ := ih hfits hinside hbefore
    rw [drawLinks_append_singleton]
    rw [← length_drawLinks hfits hinside] at hlastInside
    refine ⟨fun p hp => ?_, fun c hc => ?_⟩
    · rcases List.mem_append.mp hp with hp | hp
      · exact (hshown p hp).drawLink hlastFits hlastInside (hlast p hp)
      · obtain rfl := List.mem_singleton.mp hp
        exact showsLink_drawLink hlastFits hlastInside
    · obtain ⟨hc, hclast⟩ := List.forall_mem_append.mp hc
      rw [getElem?_drawLink_of_not_covers hlastFits hlastInside (hclast last List.mem_cons_self)]
      exact hclear c hc

end DrawLinks

/-- The links of a layout fit between their ends, inside the width, side by side on their rows. -/
structure Roomy (l : Layout) : Prop where
  fits : ∀ p ∈ l.placed,
    column l.anchors p.link.left + p.link.label.length < column l.anchors p.link.right
  inside : ∀ p ∈ l.placed, column l.anchors p.link.right < l.width
  apart : l.placed.Pairwise fun p q => p.row = q.row → overlaps l.anchors q.link p.link = false

theorem overlaps_comm (anchors : List Nat) (a b : Link) :
    overlaps anchors a b = overlaps anchors b a := Bool.and_comm _ _

theorem roomy_layout (measure : String → Nat) (d : Diagram) : Roomy (d.layoutBy measure) where
  fits := fun _ hp => column_add_label_lt_column measure d (mem_links_of_mem_placed hp)
  inside := fun _ hp => by
    obtain ⟨-, hright⟩ := d.valid _ (mem_links_of_mem_placed hp)
    rw [← length_anchors measure] at hright
    exact anchor_lt_width measure d (column_mem hright)
  apart := pairwise_not_overlaps _ _

variable {l : Layout} {k : Nat}

theorem Roomy.perm (h : Roomy l) {order : List Placed} (hperm : order.Perm l.placed) :
    Roomy { l with placed := order } where
  fits := fun p hp => h.fits p (hperm.mem_iff.mp hp)
  inside := fun p hp => h.inside p (hperm.mem_iff.mp hp)
  apart := by
    refine (hperm.pairwise_iff fun {p q} hpq hrow => ?_).mpr h.apart
    rw [overlaps_comm]
    exact hpq hrow.symm

def linkRow (l : Layout) (k : Nat) : List Char :=
  drawLinks l.anchors (blankRow l.width) (l.placed.filter (·.row == k))

theorem linkRow_spec (h : Roomy l) (k : Nat) :
    (linkRow l k).length = l.width
      ∧ (∀ p ∈ l.placed, p.row = k → ShowsLink l.anchors (linkRow l k) p.link)
      ∧ ∀ c < l.width, (∀ p ∈ l.placed, p.row = k → ¬ Covers l.anchors p.link c) →
          (linkRow l k)[c]? = some ' ' := by
  have hmem : ∀ p, p ∈ l.placed.filter (·.row == k) ↔ p ∈ l.placed ∧ p.row = k := by
    intro p
    rw [List.mem_filter, beq_iff_eq]
  have hwidth : (blankRow l.width).length = l.width := List.length_replicate
  have hfits := fun p hp => h.fits p ((hmem p).mp hp).1
  have hinside : ∀ p ∈ l.placed.filter (·.row == k),
      column l.anchors p.link.right < (blankRow l.width).length :=
    fun p hp => hwidth.symm ▸ h.inside p ((hmem p).mp hp).1
  obtain ⟨hshown, hclear⟩ := drawLinks_spec hfits hinside
    ((h.apart.filter (·.row == k)).imp_of_mem fun hp hq hpq =>
      hpq (((hmem _).mp hp).2.trans ((hmem _).mp hq).2.symm))
  refine ⟨(length_drawLinks hfits hinside).trans hwidth,
    fun p hp hrow => hshown p ((hmem p).mpr ⟨hp, hrow⟩), ?_⟩
  intro c hc hcovers
  rw [linkRow, hclear c fun p hp => hcovers p ((hmem p).mp hp).1 ((hmem p).mp hp).2, blankRow,
    List.getElem?_replicate, if_pos hc]

theorem eq_of_showsLink {row' : List Char} (hlength : row.length = l.width)
    (hlength' : row'.length = l.width)
    (hlinks : ∀ p ∈ l.placed, p.row = k →
      ShowsLink l.anchors row p.link ∧ ShowsLink l.anchors row' p.link)
    (hothers : ∀ c < l.width, (∀ p ∈ l.placed, p.row = k → ¬ Covers l.anchors p.link c) →
      row[c]? = row'[c]?) : row = row' := by
  apply List.ext_getElem?
  intro c
  by_cases hcovers : ∀ p ∈ l.placed, p.row = k → ¬ Covers l.anchors p.link c
  · by_cases hc : c < l.width
    · exact hothers c hc hcovers
    · rw [List.getElem?_eq_none (by omega), List.getElem?_eq_none (by omega)]
  · push Not at hcovers
    obtain ⟨p, hp, hrow, hcovers⟩ := hcovers
    obtain ⟨h, h'⟩ := hlinks p hp hrow
    exact h.agrees h' hcovers

theorem linkRow_perm (h : Roomy l) {order : List Placed} (hperm : order.Perm l.placed) (k : Nat) :
    linkRow { l with placed := order } k = linkRow l k := by
  obtain ⟨hlength, hshown, hclear⟩ := linkRow_spec h k
  obtain ⟨hlength', hshown', hclear'⟩ := linkRow_spec (h.perm hperm) k
  apply eq_of_showsLink (l := l) (k := k) hlength' hlength
  · exact fun p hp hrow => ⟨hshown' p (hperm.mem_iff.mpr hp) hrow, hshown p hp hrow⟩
  · intro c hc hcovers
    rw [hclear c hc hcovers, hclear' c hc fun p hp => hcovers p (hperm.mem_iff.mp hp)]

def EndsAbove (l : Layout) (k c : Nat) : Prop :=
  ∃ p ∈ l.placed, k < p.row ∧ c ∈ ends l.anchors p.link

instance (c : Nat) : Decidable (EndsAbove l k c) :=
  inferInstanceAs (Decidable (∃ p ∈ l.placed, k < p.row ∧ c ∈ ends l.anchors p.link))

theorem getElem?_drawRow (l : Layout) (k c : Nat) :
    (drawRow l k)[c]?
      = (linkRow l k)[c]?.map fun x => if x = ' ' ∧ EndsAbove l k c then '|' else x := by
  have hends : c ∈ (l.placed.filter (k < ·.row)).flatMap (fun p => ends l.anchors p.link)
      ↔ EndsAbove l k c := by
    simp only [EndsAbove, List.mem_flatMap, List.mem_filter, decide_eq_true_eq, and_assoc]
  rw [drawRow, getElem?_foldl_drawVertical]
  simp only [hends]
  rfl

theorem drawRow_perm (h : Roomy l) {order : List Placed} (hperm : order.Perm l.placed) (k : Nat) :
    drawRow { l with placed := order } k = drawRow l k := by
  apply List.ext_getElem?
  intro c
  have habove : EndsAbove { l with placed := order } k c ↔ EndsAbove l k c := by
    simp only [EndsAbove, hperm.mem_iff]
  rw [getElem?_drawRow, getElem?_drawRow, linkRow_perm h hperm]
  simp only [habove]

theorem barRow_perm {order : List Placed} (hperm : order.Perm l.placed) :
    barRow { l with placed := order } = barRow l := by
  apply List.ext_getElem?
  intro c
  rw [barRow, barRow, getElem?_foldl_drawVertical, getElem?_foldl_drawVertical]
  simp only [List.mem_flatMap, hperm.mem_iff]

/-! ### The picture of a row -/

/-- The row as it is meant to be seen, whatever the order of drawing. -/
structure Pictured (l : Layout) (k : Nat) (row : List Char) : Prop where
  length : row.length = l.width
  links : ∀ p ∈ l.placed, p.row = k → ShowsLink l.anchors row p.link
  others : ∀ c < l.width, (∀ p ∈ l.placed, p.row = k → ¬ Covers l.anchors p.link c) →
    row[c]? = some (if EndsAbove l k c then '|' else ' ')

theorem Pictured.unique {row' : List Char} (h : Pictured l k row) (h' : Pictured l k row') :
    row = row' := by
  apply eq_of_showsLink h.length h'.length
  · exact fun p hp hrow => ⟨h.links p hp hrow, h'.links p hp hrow⟩
  · intro c hc hcovers
    rw [h.others c hc hcovers, h'.others c hc hcovers]

theorem pictured_drawRow (h : Roomy l) (hlabels : ∀ p ∈ l.placed, ' ' ∉ p.link.label.toList)
    (k : Nat) : Pictured l k (drawRow l k) := by
  obtain ⟨hlength, hshown, hclear⟩ := linkRow_spec h k
  refine ⟨(length_foldl_drawVertical _ _).trans hlength, fun p hp hrow => ?_,
    fun c hc hcovers => ?_⟩
  · apply (hshown p hp hrow).congr
    intro c hc
    have hseen := (hshown p hp hrow).ne_blank (hlabels p hp) hc
    rw [getElem?_drawRow]
    rcases hcell : (linkRow l k)[c]? with _ | x
    · rfl
    · rw [hcell] at hseen
      rw [Option.map_some, if_neg fun hblank => hseen (congrArg some hblank.1)]
  · rw [getElem?_drawRow, hclear c hc hcovers]
    simp only [Option.map_some, true_and]

/-! ### The printed rows -/

theorem height_perm {order placed : List Placed} (h : order.Perm placed) :
    height order = height placed := (h.map _).foldl_eq 0

theorem lt_height {placed : List Placed} {p : Placed} (hp : p ∈ placed) : p.row < height placed :=
  (foldl_max_le_iff.mp le_rfl).2 _ (List.mem_map_of_mem hp)

theorem getElem?_linesBy {d : Diagram} (h : k < height l.placed) :
    (d.linesBy l)[height l.placed - (k + 1)]? = some (Text.trimEnd (drawRow l k)) := by
  rw [linesBy, List.append_assoc, List.getElem?_append_left, List.getElem?_map,
    List.getElem?_reverse, List.getElem?_range, Option.map_some]
  · congr 3
    rw [List.length_range]
    omega
  · rw [List.length_range]
    omega
  · rw [List.length_range]
    omega
  · rw [List.length_map, List.length_reverse, List.length_range]
    omega

theorem getElem?_linesBy_bars {d : Diagram} (h : d.links ≠ []) :
    (d.linesBy l)[height l.placed]? = some (Text.trimEnd (barRow l)) := by
  have hrows : ((List.range (height l.placed)).reverse.map fun k =>
      Text.trimEnd (drawRow l k)).length = height l.placed := by
    rw [List.length_map, List.length_reverse, List.length_range]
  have hlinks : d.links.isEmpty = false := by
    rw [List.isEmpty_eq_false_iff]
    exact h
  rw [linesBy, List.append_assoc, List.getElem?_append_right hrows.le, hrows, Nat.sub_self,
    hlinks]
  rfl

section PlainLabels

variable {measure : String → Nat} {d : Diagram}
  (hlabels : ∀ link ∈ d.links, ∀ c ∈ link.label.toList, Text.isBlank c = false)

include hlabels

theorem eq_blank_of_mem_drawRow {c : Char} (hc : c ∈ drawRow (d.layoutBy measure) k)
    (hblank : Text.isBlank c = true) : c = ' ' := by
  rcases drawn_of_mem_drawRow hc with rfl | rfl | rfl | rfl | ⟨p, hp, hlabel⟩
  · rfl
  · exact absurd hblank (by decide)
  · exact absurd hblank (by decide)
  · exact absurd hblank (by decide)
  · rw [hlabels _ (mem_links_of_mem_placed hp) c hlabel] at hblank
    cases hblank

theorem exists_trimEnd_append (measure : String → Nat) (k : Nat) :
    ∃ blanks, drawRow (d.layoutBy measure) k =
      Text.trimEnd (drawRow (d.layoutBy measure) k) ++ blankRow blanks := by
  obtain ⟨tail, hsplit, htail⟩ :=
    Text.exists_dropTail_append Text.isBlank (drawRow (d.layoutBy measure) k)
  have hblank : tail = blankRow tail.length := by
    rw [blankRow, List.eq_replicate_iff]
    refine ⟨rfl, fun c hc => ?_⟩
    have hmem : c ∈ drawRow (d.layoutBy measure) k := by
      rw [hsplit]
      exact List.mem_append_right _ hc
    exact eq_blank_of_mem_drawRow hlabels hmem (htail c hc)
  refine ⟨tail.length, ?_⟩
  rw [← hblank]
  exact hsplit

end PlainLabels

/-- However words are measured, the rows show all links of the diagram, and every printed row is its
picture up to blanks at the end: no other order of drawing the links and their verticals would show
anything else. -/
theorem linkRows_pictured (measure : String → Nat) (d : Diagram)
    (hlabels : ∀ link ∈ d.links, ∀ c ∈ link.label.toList, Text.isBlank c = false) :
    let l := d.layoutBy measure
    (l.placed.map (·.link)).Perm d.links
      ∧ ∀ k < height l.placed, ∃ line blanks,
        (d.linesBy l)[height l.placed - (k + 1)]? = some line ∧ '\n' ∉ line
          ∧ (∀ row, Pictured l k row ↔ row = line ++ blankRow blanks)
          ∧ ∀ order, order.Perm l.placed →
              drawRow { l with placed := order } k = line ++ blankRow blanks := by
  intro l
  refine ⟨map_link_perm measure d, fun k hk => ?_⟩
  have hseen : ∀ p ∈ l.placed, ' ' ∉ p.link.label.toList := by
    intro p hp hblank
    exact absurd (hlabels _ (mem_links_of_mem_placed hp) ' ' hblank) (by decide)
  have hpictured := pictured_drawRow (roomy_layout measure d) hseen k
  obtain ⟨blanks, hrow⟩ := exists_trimEnd_append hlabels measure k
  refine ⟨_, blanks, getElem?_linesBy hk, fun hbreak => ?_, fun row => ?_, fun order hperm => ?_⟩
  · have hmem := Text.mem_of_mem_dropTail hbreak
    exact absurd (eq_blank_of_mem_drawRow hlabels hmem (by decide)) (by decide)
  · rw [← hrow]
    constructor
    · exact fun h => h.unique hpictured
    · rintro rfl
      exact hpictured
  · rw [← hrow]
    exact drawRow_perm (roomy_layout measure d) hperm k

def thisIsATest : Diagram where
  words := ["LEFT-WALL", "this", "is", "a", "test"]
  links := [⟨0, 1, "Wd"⟩, ⟨1, 2, "Ss"⟩, ⟨2, 4, "Os"⟩, ⟨3, 4, "Ds"⟩]
  valid := by decide

theorem layout_thisIsATest : thisIsATest.layout =
    { gaps := [1, 1, 1, 1]
      anchors := [4, 12, 16, 18, 22]
      width := 24
      placed := [⟨⟨0, 1, "Wd"⟩, 0⟩, ⟨⟨1, 2, "Ss"⟩, 0⟩, ⟨⟨3, 4, "Ds"⟩, 0⟩, ⟨⟨2, 4, "Os"⟩, 1⟩] } := by
  have hwidths : thisIsATest.words.map Text.displayWidth = [9, 4, 2, 1, 4] := by decide +kernel
  have horder : placementOrder thisIsATest.links
      = [⟨0, 1, "Wd"⟩, ⟨1, 2, "Ss"⟩, ⟨3, 4, "Ds"⟩, ⟨2, 4, "Os"⟩] := by
    simp [placementOrder, thisIsATest, comesBefore, List.mergeSort]
  rw [layout, layoutBy, hwidths, horder, Layout.mk.injEq]
  decide +kernel

example : thisIsATest.textLines.map String.ofList =
    ["                +-Os--+",
     "    +--Wd---+Ss-+ +Ds-+",
     "    |       |   | |   |",
     "LEFT-WALL this is a test"] := by
  rw [textLines, layout_thisIsATest]
  decide +kernel

theorem linkRows_pictured_thisIsATest :
    (∀ link ∈ thisIsATest.links, ∀ c ∈ link.label.toList, Text.isBlank c = false)
      ∧ 0 < height thisIsATest.layout.placed
      ∧ ∃ line blanks, thisIsATest.textLines[height thisIsATest.layout.placed - 1]? = some line
        ∧ '\n' ∉ line
        ∧ (∀ row, Pictured thisIsATest.layout 0 row ↔ row = line ++ blankRow blanks)
        ∧ ∀ order, order.Perm thisIsATest.layout.placed →
            drawRow { thisIsATest.layout with placed := order } 0 = line ++ blankRow blanks := by
  have hall : (thisIsATest.links.flatMap (·.label.toList)).all
      (Text.isBlank · == false) = true := by decide
  have hlabels : ∀ link ∈ thisIsATest.links, ∀ c ∈ link.label.toList, Text.isBlank c = false := by
    intro link hlink c hc
    exact beq_iff_eq.mp (List.all_eq_true.mp hall c (List.mem_flatMap.mpr ⟨link, hlink, hc⟩))
  have hheight : 0 < height thisIsATest.layout.placed := by
    rw [layout_thisIsATest]
    decide
  obtain ⟨-, hrows⟩ := linkRows_pictured Text.displayWidth thisIsATest hlabels
  exact ⟨hlabels, hheight, hrows 0 hheight⟩

end LinkageCheck.Diagram
