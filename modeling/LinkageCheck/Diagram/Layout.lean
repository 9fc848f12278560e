import LinkageCheck.Diagram.Basic
import LinkageCheck.Text.Width

/-! The layout of a diagram. Each word has an anchor at its middle column; gaps between words
widen until every label fits between the anchors of its link; and links are stacked on rows,
short ones first. -/

namespace LinkageCheck.Diagram

def anchorsFrom (column : Nat) : List Nat → List Nat → List Nat
  | [], _ => []
  | width :: widths, gaps =>
    (column + width / 2) :: anchorsFrom (column + width + gaps.headD 0) widths gaps.tail

def anchorColumns (widths gaps : List Nat) : List Nat := anchorsFrom 0 widths gaps

def column (anchors : List Nat) (word : Nat) : Nat := anchors.getD word 0

def interior (anchors : List Nat) (link : Link) : Nat :=
  column anchors link.right - column anchors link.left - 1

/-- Shorter links come first, and of equally long ones the one further left. -/
def comesBefore (a b : Link) : Bool :=
  a.right - a.left < b.right - b.left
    || (a.right - a.left == b.right - b.left && a.left ≤ b.left)

def placementOrder (links : List Link) : List Link := links.mergeSort comesBefore

def widen (widths gaps : List Nat) (link : Link) : List Nat :=
  let needed := link.label.length - interior (anchorColumns widths gaps) link
  gaps.modify (link.right - 1) (· + needed)

def encloses (outer inner : Link) : Bool :=
  outer.left ≤ inner.left && inner.right ≤ outer.right
    && !(inner.left == outer.left && inner.right == outer.right)

def overlaps (anchors : List Nat) (a b : Link) : Bool :=
  column anchors a.left < column anchors b.right && column anchors b.left < column anchors a.right

/-- A link with its row, counted upwards from the bars above the words. -/
structure Placed where
  link : Link
  row : Nat
  deriving DecidableEq, Repr

def firstFree (taken : List Nat) (row : Nat) : Nat :=
  if h : row ∈ taken then firstFree (taken.erase row) (row + 1) else row
termination_by taken.length
decreasing_by
  have := List.length_erase_of_mem h
  have := List.length_pos_of_mem h
  omega

/-- A link goes above all placed links that it encloses, on the first row where it overlaps none. -/
def place (anchors : List Nat) (placed : List Placed) (link : Link) : Placed :=
  let above := (placed.filter (encloses link ·.link)).map (·.row + 1)
  let taken := (placed.filter (overlaps anchors link ·.link)).map (·.row)
  ⟨link, firstFree taken (above.foldl max 0)⟩

def placeAll (anchors : List Nat) (links : List Link) : List Placed :=
  links.foldl (fun placed link => placed ++ [place anchors placed link]) []

structure Layout where
  gaps : List Nat
  anchors : List Nat
  width : Nat
  placed : List Placed
  deriving Repr

/-- The layout under any measure of words. The width has room for the anchor of a last word without
columns of its own. -/
def layoutBy (measure : String → Nat) (d : Diagram) : Layout :=
  let widths := d.words.map measure
  let links := placementOrder d.links
  let gaps := links.foldl (widen widths) (List.replicate (d.words.length - 1) 1)
  let anchors := anchorColumns widths gaps
  { gaps
    anchors
    width := max ((widths ++ gaps).foldl (· + ·) 0) (anchors.getLast?.elim 0 (· + 1))
    placed := placeAll anchors links }

def layout (d : Diagram) : Layout := d.layoutBy Text.displayWidth

end LinkageCheck.Diagram
