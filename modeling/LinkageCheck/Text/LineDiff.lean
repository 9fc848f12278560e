import LinkageCheck.Text.Basic

/-! Line differences. A shortest edit script is found by searching from both ends for the middle
of a path; then single edits are moved along equal lines to join others of their kind. -/

namespace LinkageCheck.Text.LineDiff

/-- The lines of a text with their ends; a carriage return ends a line, alone or before a line
feed. -/
def splitLines : List Char → List (List Char)
  | [] => []
  | '\r' :: '\n' :: cs => ['\r', '\n'] :: splitLines cs
  | c :: cs =>
    if c = '\n' ∨ c = '\r' then [c] :: splitLines cs
    else
      match splitLines cs with
      | [] => [[c]]
      | line :: lines => (c :: line) :: lines

inductive Edit (α : Type) where
  | equal (lines : List α)
  | delete (lines : List α)
  | insert (lines : List α)
  deriving Repr, DecidableEq

namespace Edit

variable {α : Type}

def lines : Edit α → List α
  | equal ls | delete ls | insert ls => ls

def old : Edit α → List α
  | equal ls | delete ls => ls
  | insert _ => []

def new : Edit α → List α
  | equal ls | insert ls => ls
  | delete _ => []

end Edit

variable {α : Type} [DecidableEq α]

def commonLength : List α → List α → Nat
  | a :: as, b :: bs => if a = b then commonLength as bs + 1 else 0
  | _, _ => 0

def commonEnd (as bs : List α) : Nat := commonLength as.reverse bs.reverse

/-! ### The middle of a shortest edit script -/

/-- The furthest point on a diagonal: `enter` old lines were used up before a run of equal lines
and `leave` after it. On diagonal `k` the old lines used are `k` more than the new ones. -/
structure Reach where
  diagonal : Int
  enter : Nat
  leave : Nat
  deriving Repr

def usedNew (diagonal : Int) (usedOld : Nat) : Int := usedOld - diagonal

def follow (old new : List α) (diagonal : Int) (enter : Nat) : Reach :=
  let y := usedNew diagonal enter
  let run := if 0 ≤ y then commonLength (old.drop enter) (new.drop y.toNat) else 0
  ⟨diagonal, enter, enter + run⟩

def entries : List Nat → List Nat
  | [] => [0]
  | x :: xs =>
    let rec between : Nat → List Nat → List Nat
      | x, [] => [x]
      | x, y :: ys => (if y < x then x else y + 1) :: between y ys
    (x + 1) :: between x xs

def nextRound (old new : List α) (d : Nat) (reached : List Reach) : List Reach :=
  (entries (reached.map (·.leave))).mapIdx fun i x => follow old new (d - 2 * i) x

/-- The first point that meets one of the other direction, whose diagonals count from the other
corner. -/
def meeting? (n : Nat) (delta : Int) (ours theirs : List Reach) : Option Reach :=
  ours.find? fun r =>
    theirs.any fun s => s.diagonal == delta - r.diagonal && n ≤ r.leave + s.leave

def searchMiddle (old new : List α) :
    Nat → Nat → List Reach → List Reach → Option (Nat × Nat)
  | 0, _, _, _ => none
  | rounds + 1, d, ahead, back =>
    let n := old.length
    let delta : Int := n - new.length
    let ahead := nextRound old new d ahead
    match meeting? n delta ahead back with
    | some r => some (r.enter, (usedNew r.diagonal r.enter).toNat)
    | none =>
      let back := nextRound old.reverse new.reverse d back
      match meeting? n delta back ahead with
      | some r => some (n - r.leave, new.length - (usedNew r.diagonal r.leave).toNat)
      | none => searchMiddle old new rounds (d + 1) ahead back

def middle? (old new : List α) : Option (Nat × Nat) :=
  searchMiddle old new ((old.length + new.length + 1) / 2 + 1) 0 [] []

/-! ### The edit script -/

omit [DecidableEq α] in
theorem length_take_drop_le (as : List α) (m n : Nat) :
    ((as.drop m).take n).length ≤ as.length := by
  rw [List.length_take, List.length_drop]
  omega

/-- Equal lines at both ends are set aside, and what is left is cut at its middle. -/
def script (old new : List α) : List (Edit α) :=
  let head := commonLength old new
  let restOld := old.drop head
  let restNew := new.drop head
  let tail := commonEnd restOld restNew
  let midOld := restOld.take (restOld.length - tail)
  let midNew := restNew.take (restNew.length - tail)
  let inside : List (Edit α) :=
    if midNew.isEmpty then [.delete midOld]
    else if midOld.isEmpty then [.insert midNew]
    else
      match middle? midOld midNew with
      | some (x, y) =>
        if _h : 0 < min x midOld.length + min y midNew.length
            ∧ min x midOld.length + min y midNew.length < midOld.length + midNew.length then
          script (midOld.take x) (midNew.take y) ++ script (midOld.drop x) (midNew.drop y)
        else [.delete midOld, .insert midNew]
      | none => [.delete midOld, .insert midNew]
  let parts : List (Edit α) :=
    .equal (old.take head) :: inside ++ [.equal (restOld.drop (restOld.length - tail))]
  parts.filter fun e => !e.lines.isEmpty
termination_by old.length + new.length
decreasing_by
  all_goals
    have hOld : midOld.length ≤ old.length := length_take_drop_le ..
    have hNew : midNew.length ≤ new.length := length_take_drop_le ..
    clear_value midOld midNew
    simp only [List.length_take, List.length_drop]
    omega

/-! ### Joining edits -/

structure Place (α : Type) where
  before : List (Edit α)
  here : Edit α
  after : List (Edit α)

def weight : List (Edit α) → Nat
  | [] => 0
  | e :: es => e.lines.length + 1 + weight es

def consEqual (lines : List α) (es : List (Edit α)) : List (Edit α) :=
  if lines.isEmpty then es else .equal lines :: es

def prependEqual (lines : List α) : List (Edit α) → List (Edit α)
  | .equal ls :: es => .equal (lines ++ ls) :: es
  | es => .equal lines :: es

def appendEqual (lines : List α) : List (Edit α) → List (Edit α)
  | .equal ls :: es => .equal (ls ++ lines) :: es
  | es => .equal lines :: es

omit [DecidableEq α] in
theorem weight_consEqual_lt {fewer lines : List α} (h : fewer.length < lines.length)
    (es : List (Edit α)) : weight (consEqual fewer es) < weight (.equal lines :: es) := by
  unfold consEqual
  split <;> simp only [weight, Edit.lines] <;> omega

/-- Moves an edit up: past edits of the other kind, into edits of its own kind, and as an
insertion over equal lines that it ends with too. -/
def shiftUp : List (Edit α) → Edit α → List (Edit α) → Place α
  | [], here, after => ⟨[], here, after⟩
  | .equal ls :: before, .insert xs, after =>
    let s := commonEnd ls xs
    if _h : 0 < s ∧ s ≤ ls.length then
      let shared := ls.drop (ls.length - s)
      shiftUp (consEqual (ls.take (ls.length - s)) before)
        (.insert (shared ++ xs.take (xs.length - s))) (prependEqual shared after)
    else ⟨.equal ls :: before, .insert xs, after⟩
  | .equal ls :: before, here, after => ⟨.equal ls :: before, here, after⟩
  | .delete ls :: before, .delete xs, after => shiftUp before (.delete (ls ++ xs)) after
  | .delete ls :: before, here, after => shiftUp before here (.delete ls :: after)
  | .insert ls :: before, .insert xs, after => shiftUp before (.insert (ls ++ xs)) after
  | .insert ls :: before, here, after => shiftUp before here (.insert ls :: after)
termination_by before => weight before
decreasing_by
  · exact weight_consEqual_lt (by rw [List.length_take]; omega) before
  all_goals simp [weight]

def shiftDown : List (Edit α) → Edit α → List (Edit α) → Place α
  | before, here, [] => ⟨before, here, []⟩
  | before, .insert xs, .equal ls :: after =>
    let s := commonLength ls xs
    if _h : 0 < s ∧ s ≤ ls.length then
      let shared := ls.take s
      shiftDown (appendEqual shared before) (.insert (xs.drop s ++ shared))
        (consEqual (ls.drop s) after)
    else ⟨before, .insert xs, .equal ls :: after⟩
  | before, here, .equal ls :: after => ⟨before, here, .equal ls :: after⟩
  | before, .delete xs, .delete ls :: after => shiftDown before (.delete (xs ++ ls)) after
  | before, here, .delete ls :: after => shiftDown (.delete ls :: before) here after
  | before, .insert xs, .insert ls :: after => shiftDown before (.insert (xs ++ ls)) after
  | before, here, .insert ls :: after => shiftDown (.insert ls :: before) here after
termination_by _ _ after => weight after
decreasing_by
  · exact weight_consEqual_lt (by rw [List.length_drop]; omega) after
  all_goals simp [weight]

def isDelete : Edit α → Bool
  | .delete _ => true
  | _ => false

def isInsert : Edit α → Bool
  | .insert _ => true
  | _ => false

def shiftAll (kind : Edit α → Bool) : Nat → List (Edit α) → List (Edit α) → List (Edit α)
  | 0, before, after => before.reverse ++ after
  | _, before, [] => before.reverse
  | n + 1, before, e :: after =>
    if kind e then
      let up := shiftUp before e after
      let p := shiftDown up.before up.here up.after
      shiftAll kind n (p.here :: p.before) p.after
    else shiftAll kind n (e :: before) after

def joined (es : List (Edit α)) : List (Edit α) :=
  let steps := (weight es + 1) * (weight es + 1)
  shiftAll isInsert steps [] (shiftAll isDelete steps [] es)

/-! ### Changes line by line -/

inductive Change where
  | kept | removed | added
  deriving DecidableEq, Repr

/-- Between equal lines, what was deleted comes before what was inserted. -/
def changesOf (deleted inserted : List α) : List (Edit α) → List (Change × α)
  | [] => deleted.map (.removed, ·) ++ inserted.map (.added, ·)
  | .delete ls :: es => changesOf (deleted ++ ls) inserted es
  | .insert ls :: es => changesOf deleted (inserted ++ ls) es
  | .equal ls :: es =>
    deleted.map (.removed, ·) ++ inserted.map (.added, ·) ++ ls.map (.kept, ·) ++ changesOf [] [] es

def changes (old new : List α) : List (Change × α) := changesOf [] [] (joined (script old new))

end LinkageCheck.Text.LineDiff
