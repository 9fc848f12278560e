import LinkageCheck.Files.Tree

/-! Names of expected-results files, `parses-desc-lang.txt` or `parses-lang.txt`, and where such
files are found. -/

namespace LinkageCheck

structure ResultsName where
  lang : String
  desc : Option String
  deriving DecidableEq, Repr

namespace ResultsName

def head : List Char := "parses-".toList

def tail : List Char := ".txt".toList

/-- The file name; an empty description counts as none. -/
def text (n : ResultsName) : String :=
  match n.desc with
  | some desc => if desc.isEmpty then s!"parses-{n.lang}.txt" else s!"parses-{desc}-{n.lang}.txt"
  | none => s!"parses-{n.lang}.txt"

def splitLastHyphen : List Char → Option (List Char × List Char)
  | [] => none
  | c :: cs =>
    match splitLastHyphen cs with
    | some (before, after) => some (c :: before, after)
    | none => if c = '-' then some ([], cs) else none

def ofStem? (stem : List Char) : Option ResultsName :=
  match splitLastHyphen stem with
  | some (desc, lang) =>
    if desc.isEmpty || lang.isEmpty then none
    else some ⟨String.ofList lang, some (String.ofList desc)⟩
  | none => if stem.isEmpty then none else some ⟨String.ofList stem, none⟩

def between? (head tail cs : List Char) : Option (List Char) :=
  if head.isPrefixOf cs && tail.isSuffixOf (cs.drop head.length) then
    some ((cs.drop head.length).take (cs.length - head.length - tail.length))
  else none

def parse? (name : String) : Option ResultsName :=
  (between? head tail name.toList).bind ofStem?

def path (n : ResultsName) (srcdir : String) : String := Path.join srcdir n.text

end ResultsName

/-- A file that was found, with its path below the directory searched. -/
structure ResultsFile where
  path : String
  relative : String
  name : ResultsName
  deriving DecidableEq, Repr

namespace ResultsFile

/-- The file at a path, if it has the name of expected results; `base` is the directory searched. -/
def at? (base path : String) : Option ResultsFile := do
  let name ← ResultsName.parse? (← Path.fileName? path)
  return ⟨path, (Path.stripBase? base path).getD path, name⟩

mutual

def foundAt (base path : String) : FileNode → List ResultsFile
  | .file _ => (at? base path).toList
  | .directory entries => foundAmong base path entries

def foundAmong (base directory : String) : List (String × FileNode) → List ResultsFile
  | [] => []
  | (name, node) :: entries =>
    foundAt base (Path.join directory name) node ++ foundAmong base directory entries

end

def precedes (a b : ResultsFile) : Bool := decide (a.relative ≤ b.relative)

end ResultsFile

/-- All expected-results files below a directory by relative path; none below anything else. -/
def FileTree.discover (t : FileTree) (directory : String) : List ResultsFile :=
  (ResultsFile.foundAmong directory directory (t.entries directory)).mergeSort
    ResultsFile.precedes

end LinkageCheck
