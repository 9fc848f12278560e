import LinkageCheck.Proofs.Diagram.Picture
import Mathlib.Data.Nat.PSub

/-! Layout and drawing once more, with every subtraction and every index checked: one below zero or
out of range would leave no result. There always is one, whatever the width of the words and the
order in which the links are drawn. -/

namespace LinkageCheck.Diagram

/-! ### The checked layout -/

def interior? (anchors : List Nat) (link : Link) : Option Nat := do
  let left ← anchors[link.left]?
  let right ← anchors[link.right]?
  (← right.psub left).psub 1

def placementOrder? (links : List Link) : Option (List Link) := do
  let keyed ← links.mapM fun link => do return (← link.right.psub link.left, link)
  let shorter (a b : Nat × Link) : Bool := a.1 < b.1 || (a.1 == b.1 && a.2.left ≤ b.2.left)
  return (keyed.mergeSort shorter).map (·.2)

def widen? (widths gaps : List Nat) (link : Link) : Option (List Nat) := do
  let free ← interior? (anchorColumns widths gaps) link
  if free < link.label.length then
    let place ← link.right.psub 1
    let gap ← gaps[place]?
    return gaps.set place (gap + (← link.label.length.psub free))
  else return gaps

def overlaps? (anchors : List Nat) (a b : Link) : Option Bool := do
  if (← anchors[a.left]?) < (← anchors[b.right]?) then
    return (← anchors[b.left]?) < (← anchors[a.right]?)
  else return false

def taken? (anchors : List Nat) (link : Link) : List Placed → Option (List Nat)
  | [] => some []
  | q :: placed => do
    let overlapping ← overlaps? anchors link q.link
    let rows ← taken? anchors link placed
    return if overlapping then q.row :: rows else rows

def place? (anchors : List Nat) (placed : List Placed) (link : Link) : Option Placed := do
  let taken ← taken? anchors link placed
  return ⟨link, firstFree taken (rowAbove placed link)⟩

def layoutBy? (measure : String → Nat) (d : Diagram) : Option Layout := do
  let widths := d.words.map measure
  let links ← placementOrder? d.links
  let gaps ← links.foldlM (widen? widths) (List.replicate (d.words.length - 1) 1)
  let anchors := anchorColumns widths gaps
  let placed ← links.foldlM
    (fun placed link => do return placed ++ [← place? anchors placed link]) []
  return {
    gaps
    anchors
    width := max ((widths ++ gaps).foldl (· + ·) 0) (anchors.getLast?.elim 0 (· + 1))
    placed }

/-! ### The checked drawing -/

def write? (row : List Char) (start : Nat) (text : List Char) : Option (List Char) :=
  if start + text.length ≤ row.length then some (overwrite row start text) else none

def drawLink? (anchors : List Nat) (row : List Char) (link : Link) : Option (List Char) := do
  let left ← anchors[link.left]?
  let right ← anchors[link.right]?
  let row ← write? row left ['+']
  let row ← write? row right ['+']
  let row ← write? row (left + 1) (List.replicate (← right.psub (left + 1)) '-')
  let free ← (← right.psub left).psub 1
  let fill ← free.psub link.label.length
  write? row (left + 1 + fill / 2) link.label.toList

def drawOnRow? (anchors : List Nat) (grid : List (List Char)) (p : Placed) :
    Option (List (List Char)) := do
  let row ← grid[p.row]?
  return grid.set p.row (← drawLink? anchors row p.link)

def drawVertical? (row : List Char) (column : Nat) : Option (List Char) := do
  if (← row[column]?) = ' ' then write? row column ['|'] else return row

def dropVerticals? (anchors : List Nat) (grid : List (List Char)) (p : Placed) :
    Option (List (List Char)) := do
  let left ← anchors[p.link.left]?
  let right ← anchors[p.link.right]?
  let below ← (grid.take p.row).mapM (drawVertical? · left)
  let below ← below.mapM (drawVertical? · right)
  return below ++ grid.drop p.row

def drawBars? (anchors : List Nat) (row : List Char) (p : Placed) : Option (List Char) := do
  let left ← anchors[p.link.left]?
  let right ← anchors[p.link.right]?
  write? (← write? row left ['|']) right ['|']

def wordsFrom? (gaps : List Nat) (place : Nat) : List (List Char) → Option (List Char)
  | [] => some []
  | word :: words => do
    let gap ← if place = 0 then some 0 else do gaps[← place.psub 1]?
    return blankRow gap ++ word ++ (← wordsFrom? gaps (place + 1) words)

def lines? (d : Diagram) (l : Layout) : Option (List (List Char)) := do
  let grid := List.replicate (height l.placed) (blankRow l.width)
  let grid ← l.placed.foldlM (drawOnRow? l.anchors) grid
  let grid ← l.placed.foldlM (dropVerticals? l.anchors) grid
  let bars ← l.placed.foldlM (drawBars? l.anchors) (blankRow l.width)
  let words ← wordsFrom? l.gaps 0 (d.words.map String.toList)
  return grid.reverse.map Text.trimEnd ++ (if d.links.isEmpty then [] else [Text.trimEnd bars])
    ++ [words]

def text? (d : Diagram) : Option String := do
  let lines ← lines? d (← layoutBy? Text.displayWidth d)
  return String.ofList (List.intercalate ['\n'] lines)

/-! ### Folds none of whose steps fails -/

theorem mapM_eq_some {α β : Type} {f? : α → Option β} {f : α → β} {xs : List α}
    (h : ∀ x ∈ xs, f? x = some (f x)) : xs.mapM f? = some (xs.map f) := by
  induction xs with
  | nil => rfl
  | cons x xs ih =>
    obtain ⟨hx, hxs⟩ := List.forall_mem_cons.mp h
    rw [List.mapM_cons, hx, ih hxs]
    rfl

theorem foldlM_eq_some {α β : Type} {f? : β → α → Option β} {f : β → α → β} (Inv : β → Prop)
    {xs : List α} {b : β} (hstart : Inv b)
    (hstep : ∀ b, Inv b → ∀ x ∈ xs, f? b x = some (f b x) ∧ Inv (f b x)) :
    xs.foldlM f? b = some (xs.foldl f b) := by
  induction xs generalizing b with
  | nil => rfl
  | cons x xs ih =>
    obtain ⟨hx, hnext⟩ := hstep b hstart x List.mem_cons_self
    rw [List.foldlM_cons, hx, List.foldl_cons]
    exact ih hnext fun b hb y hy => hstep b hb y (List.mem_cons_of_mem _ hy)

/-! ### The layout exists -/

variable {anchors widths gaps : List Nat} {link a b : Link}

theorem interior?_eq_some (hordered : anchors.Pairwise (· < ·)) (h : Within anchors.length link) :
    interior? anchors link = some (interior anchors link) := by
  obtain ⟨horder, hright⟩ := h
  have hcolumns := column_lt_column_of_pairwise hordered horder hright
  rw [interior?, getElem?_eq_column (horder.trans hright), getElem?_eq_column hright]
  show (Nat.psub _ _).bind (fun n => n.psub 1) = _
  rw [Nat.psub_eq_sub hcolumns.le, Option.bind_some, Nat.psub_eq_sub (Nat.sub_pos_of_lt hcolumns)]
  rfl

theorem placementOrder?_eq_some {links : List Link} (h : ∀ link ∈ links, link.left < link.right) :
    placementOrder? links = some (placementOrder links) := by
  have hkeys : links.mapM (fun link => do return (← link.right.psub link.left, link))
      = some (links.map fun link => (link.right - link.left, link)) := by
    apply mapM_eq_some
    intro link hlink
    rw [Nat.psub_eq_sub (h link hlink).le]
    rfl
  have hsorted := List.map_mergeSort (r := comesBefore) (l := links)
    (s := fun a b : Nat × Link => a.1 < b.1 || (a.1 == b.1 && a.2.left ≤ b.2.left))
    (f := fun link => (link.right - link.left, link)) fun _ _ _ _ => rfl
  rw [placementOrder?, hkeys]
  simp only [Option.bind_eq_bind, Option.bind_some, Option.pure_def]
  rw [← hsorted, List.map_map]
  exact congrArg some (List.map_id _)

theorem widen?_eq_some (hlength : gaps.length = widths.length - 1) (hpos : ∀ g ∈ gaps, 0 < g)
    (h : Within widths.length link) : widen? widths gaps link = some (widen widths gaps link) := by
  have hordered : (anchorColumns widths gaps).Pairwise (· < ·) :=
    pairwise_anchorsFrom 0 (by omega) hpos
  have hwithin : Within (anchorColumns widths gaps).length link := by
    rwa [anchorColumns, length_anchorsFrom]
  obtain ⟨horder, hright⟩ := h
  have hgap : link.right - 1 < gaps.length := by omega
  simp only [widen?, widen, interior?_eq_some hordered hwithin, Option.bind_eq_bind,
    Option.bind_some, Option.pure_def]
  generalize interior (anchorColumns widths gaps) link = free
  split
  · next hlacks =>
    rw [Nat.psub_eq_sub (by omega), Option.bind_some, List.getElem?_eq_getElem hgap,
      Option.bind_some, Nat.psub_eq_sub hlacks.le, Option.bind_some, List.modify_eq_set_get _ hgap]
    rfl
  · next hfits =>
    rw [Nat.sub_eq_zero_of_le (Nat.not_lt.mp hfits)]
    exact congrArg some (List.modify_id _ _).symm

theorem overlaps?_eq_some (ha : Within anchors.length a) (hb : Within anchors.length b) :
    overlaps? anchors a b = some (overlaps anchors a b) := by
  obtain ⟨haorder, haright⟩ := ha
  obtain ⟨hborder, hbright⟩ := hb
  simp only [overlaps?, overlaps, getElem?_eq_column haright, getElem?_eq_column hbright,
    getElem?_eq_column (haorder.trans haright), getElem?_eq_column (hborder.trans hbright),
    Option.bind_eq_bind, Option.bind_some, Option.pure_def]
  split
  · next h => rw [decide_eq_true h, Bool.true_and]
  · next h => rw [decide_eq_false h, Bool.false_and]

variable {placed : List Placed}

theorem taken?_eq_some (hlink : Within anchors.length link)
    (hplaced : ∀ q ∈ placed, Within anchors.length q.link) :
    taken? anchors link placed
      = some ((placed.filter (overlaps anchors link ·.link)).map (·.row)) := by
  induction placed with
  | nil => rfl
  | cons q placed ih =>
    obtain ⟨hq, hplaced⟩ := List.forall_mem_cons.mp hplaced
    simp only [taken?, overlaps?_eq_some hlink hq, ih hplaced, Option.bind_eq_bind,
      Option.bind_some, Option.pure_def, List.filter_cons]
    split
    · rfl
    · rfl

theorem place?_eq_some (hlink : Within anchors.length link)
    (hplaced : ∀ q ∈ placed, Within anchors.length q.link) :
    place? anchors placed link = some (place anchors placed link) := by
  rw [place?, taken?_eq_some hlink hplaced]
  rfl

theorem layoutBy?_eq_some (measure : String → Nat) (d : Diagram) :
    layoutBy? measure d = some (d.layoutBy measure) := by
  have hmem : ∀ link ∈ placementOrder d.links, Within d.words.length link := by
    intro link h
    exact d.valid link (List.mem_mergeSort.mp h)
  have hwords : (d.words.map measure).length = d.words.length := List.length_map _
  have hgaps : (placementOrder d.links).foldlM (widen? (d.words.map measure))
        (List.replicate (d.words.length - 1) 1)
      = some (d.layoutBy measure).gaps := by
    apply foldlM_eq_some fun gaps => gaps.length = d.words.length - 1 ∧ ∀ g ∈ gaps, 0 < g
    · refine ⟨List.length_replicate, fun g hg => ?_⟩
      rw [List.eq_of_mem_replicate hg]
      exact Nat.one_pos
    · rintro gaps ⟨hlength, hpos⟩ link hlink
      have hwithin := hmem link hlink
      rw [← hwords] at hlength hwithin
      refine ⟨widen?_eq_some hlength hpos hwithin, ?_, pos_of_mem_widen hpos⟩
      rw [widen, List.length_modify, hlength, hwords]
  have hplaced : (placementOrder d.links).foldlM
        (fun placed link => do
          return placed ++ [← place? (d.layoutBy measure).anchors placed link]) []
      = some (d.layoutBy measure).placed := by
    have hanchors := length_anchors measure d
    apply foldlM_eq_some
      fun placed => ∀ q ∈ placed, Within (d.layoutBy measure).anchors.length q.link
    · exact fun q hq => absurd hq List.not_mem_nil
    · intro placed hplaced link hlink
      have hwithin := hmem link hlink
      rw [← hanchors] at hwithin
      refine ⟨?_, List.forall_mem_append.mpr ⟨hplaced, List.forall_mem_singleton.mpr hwithin⟩⟩
      rw [place?_eq_some hwithin hplaced]
      rfl
  rw [layoutBy?, placementOrder?_eq_some fun link hlink => (d.valid link hlink).1]
  show Option.bind (List.foldlM _ _ _) _ = _
  rw [hgaps]
  exact congrArg (Option.bind · _) hplaced

/-! ### The drawing exists -/

variable {row : List Char} {width : Nat}

theorem write?_eq_some {start : Nat} {text : List Char} (h : start + text.length ≤ row.length) :
    write? row start text = some (overwrite row start text) := if_pos h

theorem exists_write? (row : List Char) (start : Nat) (text : List Char)
    (h : start + text.length ≤ row.length) :
    ∃ written, write? row start text = some written ∧ written.length = row.length
      ∧ ∀ c : Nat, written[c]? =
          if start ≤ c ∧ c < start + text.length then text[c - start]? else row[c]? :=
  ⟨_, write?_eq_some h, length_overwrite h, getElem?_overwrite h⟩

/-- What it takes to draw a link: two anchors in their order, room for the label between them, and
a row that reaches the second one. -/
structure Drawable (anchors : List Nat) (width : Nat) (link : Link) : Prop where
  within : Within anchors.length link
  fits : column anchors link.left + link.label.length < column anchors link.right
  inside : column anchors link.right < width

theorem Drawable.left (h : Drawable anchors width link) :
    anchors[link.left]? = some (column anchors link.left) :=
  getElem?_eq_column (h.within.1.trans h.within.2)

theorem Drawable.right (h : Drawable anchors width link) :
    anchors[link.right]? = some (column anchors link.right) := getElem?_eq_column h.within.2

theorem Drawable.left_lt (h : Drawable anchors width link) : column anchors link.left < width :=
  (Nat.le_add_right _ _).trans_lt (h.fits.trans h.inside)

theorem drawLink?_eq_some (h : Drawable anchors row.length link) :
    drawLink? anchors row link = some (drawLink anchors row link) := by
  have hfits := h.fits
  have hinside := h.inside
  obtain ⟨hbegin, hend⟩ := labelColumn_bounds hfits
  obtain ⟨begun, hbegun, hbegunLength, hbegunCell⟩ :=
    exists_write? row (column anchors link.left) ['+'] (by rw [List.length_singleton]; omega)
  obtain ⟨ended, hended, hendedLength, hendedCell⟩ :=
    exists_write? begun (column anchors link.right) ['+'] (by rw [List.length_singleton]; omega)
  obtain ⟨dashed, hdashed, hdashedLength, hdashedCell⟩ :=
    exists_write? ended (column anchors link.left + 1)
      (List.replicate (column anchors link.right - (column anchors link.left + 1)) '-')
      (by rw [List.length_replicate]; omega)
  obtain ⟨drawn, hdrawn, -, hdrawnCell⟩ :=
    exists_write? dashed (labelColumn anchors link) link.label.toList
      (by rw [String.length_toList]; omega)
  have hresult : drawn = drawLink anchors row link := by
    apply List.ext_getElem?
    intro c
    rw [hdrawnCell, hdashedCell, hendedCell, hbegunCell]
    simp only [List.length_singleton, List.length_replicate, String.length_toList,
      List.getElem?_replicate]
    by_cases hc : Covers anchors link c
    · rw [getElem?_drawLink_of_covers hfits hinside hc]
      rw [Covers] at hc
      grind
    · rw [getElem?_drawLink_of_not_covers hfits hinside hc]
      rw [Covers] at hc
      grind
  simp only [drawLink?, h.left, h.right, Option.bind_eq_bind, Option.bind_some, hbegun, hended,
    Nat.psub_eq_sub (show column anchors link.left + 1 ≤ column anchors link.right by omega),
    hdashed, Nat.psub_eq_sub (show column anchors link.left ≤ column anchors link.right by omega),
    Nat.psub_eq_sub (show 1 ≤ column anchors link.right - column anchors link.left by omega),
    Nat.psub_eq_sub (show link.label.length
      ≤ column anchors link.right - column anchors link.left - 1 by omega)]
  exact hdrawn.trans (congrArg some hresult)

theorem write?_bar_eq_some {c : Nat} (h : row[c]? = some ' ' ∨ row[c]? = some '|') :
    write? row c ['|'] = some (drawVertical row c) := by
  have hc : c < row.length := by
    rcases h with h | h
    · exact (List.getElem?_eq_some_iff.mp h).1
    · exact (List.getElem?_eq_some_iff.mp h).1
  obtain ⟨written, hwritten, -, hcell⟩ := exists_write? row c ['|'] hc
  refine hwritten.trans (congrArg some (List.ext_getElem? fun i => ?_))
  rw [hcell, getElem?_drawVertical, List.length_singleton]
  by_cases hi : i = c
  · subst hi
    rw [if_pos ⟨le_rfl, Nat.lt_succ_self i⟩, Nat.sub_self]
    rcases h with h | h
    · simp [h]
    · simp [h]
  · rw [if_neg (by omega)]
    simp only [hi, and_false, if_false, Option.map_id']

theorem drawVertical?_eq_some {c : Nat} (h : c < row.length) :
    drawVertical? row c = some (drawVertical row c) := by
  have hcell := List.getElem?_eq_getElem h
  rw [drawVertical?, hcell]
  simp only [Option.bind_eq_bind, Option.bind_some, Option.pure_def]
  split
  · next hblank => exact write?_bar_eq_some (.inl (hcell.trans (congrArg some hblank)))
  · next hsign =>
    refine congrArg some (List.ext_getElem? fun i => ?_)
    rw [getElem?_drawVertical]
    by_cases hi : i = c
    · subst hi
      simp only [hcell, Option.map_some, hsign, false_and, if_false]
    · simp only [hi, and_false, if_false, Option.map_id']

theorem length_drawLinks_blankRow {own : List Placed}
    (h : ∀ p ∈ own, Drawable anchors width p.link) :
    (drawLinks anchors (blankRow width) own).length = width := by
  have hwidth : (blankRow width).length = width := List.length_replicate
  rw [length_drawLinks (fun p hp => (h p hp).fits) fun p hp => hwidth.symm ▸ (h p hp).inside,
    hwidth]

section Grid

variable {rows : Nat} {p : Placed}

theorem getElem?_map_range (content : Nat → List Char) (k : Nat) :
    ((List.range rows).map content)[k]? = if k < rows then some (content k) else none := by
  rw [List.getElem?_map]
  split
  · next hk => rw [List.getElem?_range hk, Option.map_some]
  · next hk =>
    rw [List.getElem?_eq_none (by rwa [List.length_range, ← Nat.not_lt]), Option.map_none]

theorem drawOnRow?_eq_some {content : Nat → List Char} (hrow : p.row < rows)
    (h : Drawable anchors (content p.row).length p.link) :
    drawOnRow? anchors ((List.range rows).map content) p
      = some ((List.range rows).map fun k =>
          if p.row = k then drawLink anchors (content k) p.link else content k) := by
  rw [drawOnRow?, getElem?_map_range, if_pos hrow]
  simp only [Option.bind_eq_bind, Option.bind_some, Option.pure_def, drawLink?_eq_some h]
  refine congrArg some (List.ext_getElem? fun k => ?_)
  rw [List.getElem?_set, List.length_map, List.length_range, if_pos hrow, getElem?_map_range,
    getElem?_map_range]
  by_cases hk : p.row = k
  · subst hk
    rw [if_pos rfl, if_pos hrow, if_pos rfl]
  · rw [if_neg hk, if_neg hk]

/-- Drawing link by link on the whole grid draws the links of each row on their own. -/
theorem foldlM_drawOnRow? {placed : List Placed}
    (h : ∀ p ∈ placed, p.row < rows ∧ Drawable anchors width p.link) :
    placed.foldlM (drawOnRow? anchors) (List.replicate rows (blankRow width))
      = some ((List.range rows).map fun k =>
          drawLinks anchors (blankRow width) (placed.filter (·.row == k))) := by
  induction placed using List.reverseRecOn with
  | nil =>
    refine congrArg some (List.ext_getElem? fun k => ?_)
    rw [getElem?_map_range, List.getElem?_replicate]
    rfl
  | append_singleton placed last ih =>
    obtain ⟨hplaced, hlast⟩ := List.forall_mem_append.mp h
    obtain ⟨hrow, hlast⟩ := hlast last List.mem_cons_self
    have hlength : (drawLinks anchors (blankRow width)
        (placed.filter (·.row == last.row))).length = width :=
      length_drawLinks_blankRow fun p hp => (hplaced p (List.mem_filter.mp hp).1).2
    rw [List.foldlM_append, ih hplaced]
    simp only [Option.bind_eq_bind, Option.bind_some, List.foldlM_cons, List.foldlM_nil]
    rw [drawOnRow?_eq_some hrow (by rwa [hlength])]
    refine congrArg some (List.map_congr_left fun k _ => ?_)
    rw [List.filter_append]
    by_cases hk : last.row = k
    · rw [if_pos hk, List.filter_cons_of_pos (by rw [hk]; exact BEq.rfl), List.filter_nil,
        drawLinks_append_singleton]
    · rw [if_neg hk, List.filter_cons_of_neg (by rwa [beq_iff_eq]), List.filter_nil,
        List.append_nil]

theorem mapM_drawVertical? (grid : List (List Char)) (c : Nat) (h : ∀ row ∈ grid, c < row.length) :
    grid.mapM (drawVertical? · c) = some (grid.map (drawVertical · c)) :=
  mapM_eq_some fun row hrow => drawVertical?_eq_some (h row hrow)

theorem dropVerticals?_eq_some {content : Nat → List Char} (hrow : p.row < rows)
    (hlength : ∀ k < rows, (content k).length = width) (h : Drawable anchors width p.link) :
    dropVerticals? anchors ((List.range rows).map content) p
      = some ((List.range rows).map fun k =>
          if k < p.row then (ends anchors p.link).foldl drawVertical (content k)
          else content k) := by
  have hwidth : ∀ row ∈ ((List.range rows).map content).take p.row, row.length = width := by
    intro row hrow
    obtain ⟨k, hk, rfl⟩ := List.mem_map.mp (List.mem_of_mem_take hrow)
    exact hlength k (List.mem_range.mp hk)
  have hfirst := mapM_drawVertical? (((List.range rows).map content).take p.row)
    (column anchors p.link.left) fun row hrow => (hwidth row hrow).symm ▸ h.left_lt
  have hsecond := mapM_drawVertical? ((((List.range rows).map content).take p.row).map
      (drawVertical · (column anchors p.link.left))) (column anchors p.link.right) (by
    intro row hrow
    obtain ⟨before, hbefore, rfl⟩ := List.mem_map.mp hrow
    rw [length_drawVertical, hwidth before hbefore]
    exact h.inside)
  simp only [dropVerticals?, h.left, h.right, Option.bind_eq_bind, Option.bind_some, hfirst,
    hsecond, Option.pure_def]
  refine congrArg some (List.ext_getElem? fun k => ?_)
  have htake : (((List.range rows).map content).take p.row).length = p.row := by
    rw [List.length_take, List.length_map, List.length_range]
    omega
  rw [List.getElem?_append, List.length_map, List.length_map, htake, getElem?_map_range]
  by_cases hk : k < p.row
  · rw [if_pos hk, if_pos hk, if_pos (hk.trans hrow), List.getElem?_map, List.getElem?_map,
      List.getElem?_take_of_lt hk, getElem?_map_range, if_pos (hk.trans hrow)]
    rfl
  · rw [if_neg hk, if_neg hk, List.getElem?_drop, getElem?_map_range,
      Nat.add_sub_of_le (Nat.not_lt.mp hk)]

theorem foldlM_dropVerticals? {placed : List Placed} {content : Nat → List Char}
    (hlength : ∀ k < rows, (content k).length = width)
    (h : ∀ p ∈ placed, p.row < rows ∧ Drawable anchors width p.link) :
    placed.foldlM (dropVerticals? anchors) ((List.range rows).map content)
      = some ((List.range rows).map fun k =>
          ((placed.filter (k < ·.row)).flatMap fun p => ends anchors p.link).foldl drawVertical
            (content k)) := by
  induction placed using List.reverseRecOn with
  | nil => rfl
  | append_singleton placed last ih =>
    obtain ⟨hplaced, hlast⟩ := List.forall_mem_append.mp h
    obtain ⟨hrow, hlast⟩ := hlast last List.mem_cons_self
    rw [List.foldlM_append, ih hplaced]
    simp only [Option.bind_eq_bind, Option.bind_some, List.foldlM_cons, List.foldlM_nil]
    rw [dropVerticals?_eq_some hrow
      (fun k hk => (length_foldl_drawVertical _ _).trans (hlength k hk)) hlast]
    refine congrArg some (List.map_congr_left fun k _ => ?_)
    rw [List.filter_append, List.flatMap_append, List.foldl_append]
    by_cases hk : k < last.row
    · rw [if_pos hk, List.filter_singleton, decide_eq_true hk, cond_true, List.flatMap_singleton]
    · rw [if_neg hk, List.filter_singleton, decide_eq_false hk]
      rfl

end Grid

/-! ### Bars and words -/

def Barred (width : Nat) (row : List Char) : Prop :=
  ∀ c < width, row[c]? = some ' ' ∨ row[c]? = some '|'

theorem Barred.drawVertical (h : Barred width row) (c : Nat) :
    Barred width (drawVertical row c) := by
  intro i hi
  rw [getElem?_drawVertical]
  rcases h i hi with hcell | hcell
  · rw [hcell, Option.map_some]
    split
    · exact .inr rfl
    · exact .inl rfl
  · rw [hcell]
    exact .inr rfl

theorem foldlM_drawBars? {placed : List Placed} (h : ∀ p ∈ placed, Drawable anchors width p.link) :
    placed.foldlM (drawBars? anchors) (blankRow width)
      = some
        ((placed.flatMap fun p => ends anchors p.link).foldl drawVertical (blankRow width)) := by
  rw [List.foldl_flatMap]
  apply foldlM_eq_some (Barred width)
  · intro c hc
    rw [blankRow, List.getElem?_replicate, if_pos hc]
    exact .inl rfl
  · intro row hbarred p hp
    have hfirst := write?_bar_eq_some (hbarred _ (h p hp).left_lt)
    have hbarred := hbarred.drawVertical (column anchors p.link.left)
    have hsecond := write?_bar_eq_some (hbarred _ (h p hp).inside)
    refine ⟨?_, hbarred.drawVertical _⟩
    simp only [drawBars?, (h p hp).left, (h p hp).right, Option.bind_eq_bind, Option.bind_some,
      hfirst, hsecond]
    rfl

theorem append_wordLine (word : List Char) (words : List (List Char)) (gaps : List Nat) :
    word ++ wordLine ([] :: words) gaps = wordLine (word :: words) gaps := by
  cases words with
  | nil => exact List.append_nil word
  | cons next words => simp only [wordLine, List.nil_append, List.append_assoc]

theorem wordsFrom?_eq_some {gaps : List Nat} {words : List (List Char)} {place : Nat}
    (h : place + words.length ≤ gaps.length) :
    wordsFrom? gaps (place + 1) words = some (wordLine ([] :: words) (gaps.drop place)) := by
  induction words generalizing place with
  | nil => rfl
  | cons word words ih =>
    rw [List.length_cons] at h
    have hgap : place < gaps.length := by omega
    have hdrop : gaps.drop place = gaps[place] :: gaps.drop (place + 1) :=
      List.drop_eq_getElem_cons hgap
    simp only [wordsFrom?, Nat.add_one_ne_zero, if_false, Nat.psub_eq_sub (Nat.le_add_left 1 place),
      Option.bind_eq_bind, Option.bind_some, Option.pure_def, Nat.add_sub_cancel,
      List.getElem?_eq_getElem hgap, ih (show place + 1 + words.length ≤ gaps.length by omega)]
    rw [List.append_assoc, append_wordLine, hdrop]
    rfl

theorem wordsFrom?_zero {gaps : List Nat} {words : List (List Char)}
    (h : gaps.length = words.length - 1) :
    wordsFrom? gaps 0 words = some (wordLine words gaps) := by
  cases words with
  | nil => rfl
  | cons word words =>
    have hlater : wordsFrom? gaps 1 words = some (wordLine ([] :: words) gaps) :=
      wordsFrom?_eq_some (by rw [Nat.zero_add, h, List.length_cons, Nat.add_sub_cancel])
    simp only [wordsFrom?, if_true, Option.bind_eq_bind, Option.bind_some, Option.pure_def, hlater]
    exact congrArg some (append_wordLine word words gaps)

/-! ### Rendering never fails -/

theorem linesBy_perm {d : Diagram} {l : Layout} (h : Roomy l) {order : List Placed}
    (hperm : order.Perm l.placed) : d.linesBy { l with placed := order } = d.linesBy l := by
  simp only [linesBy, height_perm hperm, drawRow_perm h hperm, barRow_perm hperm]

theorem lines?_eq_some {d : Diagram} {l : Layout} (hgaps : l.gaps.length = d.words.length - 1)
    (hdrawable : ∀ p ∈ l.placed, Drawable l.anchors l.width p.link) :
    lines? d l = some (d.linesBy l) := by
  have hplaced : ∀ p ∈ l.placed, p.row < height l.placed ∧ Drawable l.anchors l.width p.link :=
    fun p hp => ⟨lt_height hp, hdrawable p hp⟩
  have hlength : ∀ k < height l.placed, (drawLinks l.anchors (blankRow l.width)
      (l.placed.filter (·.row == k))).length = l.width :=
    fun k _ => length_drawLinks_blankRow fun p hp => hdrawable p (List.mem_filter.mp hp).1
  have hwords : l.gaps.length = (d.words.map String.toList).length - 1 := by
    rw [List.length_map, hgaps]
  simp only [lines?, foldlM_drawOnRow? hplaced, foldlM_dropVerticals? hlength hplaced,
    foldlM_drawBars? hdrawable, wordsFrom?_zero hwords, Option.bind_eq_bind, Option.bind_some,
    Option.pure_def]
  rw [← List.map_reverse, List.map_map]
  rfl

theorem drawable_layoutBy (measure : String → Nat) {d : Diagram} {link : Link}
    (h : link ∈ d.links) :
    Drawable (d.layoutBy measure).anchors (d.layoutBy measure).width link := by
  have hvalid := d.valid link h
  rw [← length_anchors measure] at hvalid
  exact ⟨hvalid, column_add_label_lt_column measure d h,
    anchor_lt_width measure d (column_mem hvalid.2)⟩

/-- What a layout promises to the drawing, and that both succeed with every step checked. -/
structure Sound (measure : String → Nat) (d : Diagram) : Prop where
  length : (d.layoutBy measure).anchors.length = d.words.length
  ordered : (d.layoutBy measure).anchors.Pairwise (· < ·)
  inside : ∀ anchor ∈ (d.layoutBy measure).anchors, anchor < (d.layoutBy measure).width
  labels : ∀ link ∈ d.links, ∃ left right,
    (d.layoutBy measure).anchors[link.left]? = some left
      ∧ (d.layoutBy measure).anchors[link.right]? = some right
      ∧ left + link.label.length < right
  layout : layoutBy? measure d = some (d.layoutBy measure)
  /-- The links may be drawn in any order. -/
  lines : ∀ order, order.Perm (d.layoutBy measure).placed →
    lines? d { d.layoutBy measure with placed := order } = some (d.linesBy (d.layoutBy measure))

theorem sound_layoutBy (measure : String → Nat) (d : Diagram) : Sound measure d where
  length := length_anchors measure d
  ordered := pairwise_anchors measure d
  inside := fun _ h => anchor_lt_width measure d h
  labels := fun _ hlink => by
    have h := drawable_layoutBy measure hlink
    exact ⟨_, _, h.left, h.right, h.fits⟩
  layout := layoutBy?_eq_some measure d
  lines := fun order hperm => by
    rw [← linesBy_perm (roomy_layout measure d) hperm]
    apply lines?_eq_some (l := { d.layoutBy measure with placed := order })
      (gaps_spec measure d).1
    intro p hp
    exact drawable_layoutBy measure (mem_links_of_mem_placed (hperm.mem_iff.mp hp))

/-- However words are measured, every label fits and no step of layout and drawing fails. With the
widths that words have, the checked rendering gives the text of the diagram. -/
theorem rendering_sound (d : Diagram) :
    (∀ measure, Sound measure d) ∧ text? d = some d.text := by
  refine ⟨fun measure => sound_layoutBy measure d, ?_⟩
  have h := sound_layoutBy Text.displayWidth d
  have hlines : lines? d (d.layoutBy Text.displayWidth) = some d.textLines := h.lines _ (.refl _)
  rw [text?, h.layout]
  simp only [Option.bind_eq_bind, Option.bind_some, Option.pure_def, hlines]
  rfl

end LinkageCheck.Diagram
