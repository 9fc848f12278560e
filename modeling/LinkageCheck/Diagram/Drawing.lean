import LinkageCheck.Diagram.Layout
import LinkageCheck.Text.Basic

/-! Drawing a diagram: links as rows of dashes with their labels, verticals from link ends down
to the bars, a row of bars, and the words. -/

namespace LinkageCheck.Diagram

def blankRow (width : Nat) : List Char := List.replicate width ' '

def overwrite (row : List Char) (start : Nat) (text : List Char) : List Char :=
  row.take start ++ text ++ row.drop (start + text.length)

/-- A link between its two ends: the label in the middle of dashes, the spare dash on the right. -/
def linkText (free : Nat) (label : List Char) : List Char :=
  let fill := free - label.length
  '+' :: List.replicate (fill / 2) '-' ++ label ++ List.replicate (fill - fill / 2) '-' ++ ['+']

def drawLink (anchors : List Nat) (row : List Char) (link : Link) : List Char :=
  overwrite row (column anchors link.left) (linkText (interior anchors link) link.label.toList)

def drawVertical (row : List Char) (column : Nat) : List Char :=
  row.modify column fun c => if c = ' ' then '|' else c

def ends (anchors : List Nat) (link : Link) : List Nat :=
  [column anchors link.left, column anchors link.right]

/-- Row `k`: its own links first, then the verticals of the links above. -/
def drawRow (l : Layout) (k : Nat) : List Char :=
  let own := l.placed.filter (·.row == k)
  let above := l.placed.filter (k < ·.row)
  let row := own.foldl (fun row p => drawLink l.anchors row p.link) (blankRow l.width)
  (above.flatMap fun p => ends l.anchors p.link).foldl drawVertical row

def height (placed : List Placed) : Nat := (placed.map (·.row + 1)).foldl max 0

def barRow (l : Layout) : List Char :=
  (l.placed.flatMap fun p => ends l.anchors p.link).foldl drawVertical (blankRow l.width)

def wordLine : List (List Char) → List Nat → List Char
  | [], _ => []
  | [word], _ => word
  | word :: words, gaps => word ++ blankRow (gaps.headD 0) ++ wordLine words gaps.tail

/-- The rows from the top down, the bars if there are links, and the words. -/
def linesBy (d : Diagram) (l : Layout) : List (List Char) :=
  let rows := (List.range (height l.placed)).reverse.map fun k => Text.trimEnd (drawRow l k)
  let bars := if d.links.isEmpty then [] else [Text.trimEnd (barRow l)]
  rows ++ bars ++ [wordLine (d.words.map String.toList) l.gaps]

def textLines (d : Diagram) : List (List Char) := d.linesBy d.layout

def text (d : Diagram) : String :=
  String.ofList (List.intercalate ['\n'] d.textLines)

def render (d : Diagram) : String := "\n" ++ d.text ++ "\n\n"

end LinkageCheck.Diagram
