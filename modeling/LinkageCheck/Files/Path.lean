import LinkageCheck.Text.Basic

/-! Paths as text, and their components: repeated slashes, slashes at the end and dots inside do not
count. -/

namespace LinkageCheck

inductive PathComponent where
  | root | here | parent
  | name (s : String)
  deriving DecidableEq, Repr

namespace Path

def parts (path : String) : List (List Char) := path.toList.splitOn '/'

def isAbsolute (path : String) : Bool := path.toList.head? == some '/'

def componentOf (part : List Char) : Option PathComponent :=
  if part = [] ∨ part = ['.'] then none
  else if part = ['.', '.'] then some .parent
  else some (.name (String.ofList part))

/-- A dot counts only as the first part of a path. -/
def components (path : String) : List PathComponent :=
  let lead :=
    if isAbsolute path then [.root] else if (parts path).head? = some ['.'] then [.here] else []
  lead ++ (parts path).filterMap componentOf

/-- An absolute second path replaces the first. -/
def join (base path : String) : String :=
  if isAbsolute path || base.isEmpty then path
  else if base.toList.getLast? = some '/' then base ++ path
  else base ++ "/" ++ path

def fileName? (path : String) : Option String :=
  match (components path).getLast? with
  | some (.name s) => some s
  | _ => none

def fileName (path : String) : String := (fileName? path).getD path

/-- The parts behind the first `n` components, from the next component on. -/
def partsBehind : Nat → List (List Char) → List (List Char)
  | _, [] => []
  | n, part :: parts =>
    if (componentOf part).isNone then partsBehind n parts
    else
      match n with
      | 0 => part :: parts
      | n + 1 => partsBehind n parts

/-- The rest of a path behind a base that is not empty, if the path begins with its components. -/
def stripBase? (base path : String) : Option String :=
  if (components base).isPrefixOf (components path) then
    let rest := partsBehind ((parts base).filterMap componentOf).length (parts path)
    let rest := Text.dropTail (fun part => (componentOf part).isNone) rest
    some (String.ofList (['/'].intercalate rest))
  else none

end Path

end LinkageCheck
