import LinkageCheck.Files.Path
import LinkageCheck.Text.Utf8

/-! A file system as a tree of directories and files. -/

namespace LinkageCheck

inductive FileNode where
  | file (content : List UInt8)
  | directory (entries : List (String × FileNode))

inductive FileFault where
  | notFound | notDirectory | isDirectory | nameTooLong | nulByte | notText
  deriving DecidableEq, Repr

def FileFault.message : FileFault → String
  | notFound => "No such file or directory (os error 2)"
  | notDirectory => "Not a directory (os error 20)"
  | isDirectory => "Is a directory (os error 21)"
  | nameTooLong => "File name too long (os error 36)"
  | nulByte => "file name contained an unexpected NUL byte"
  | notText => "stream did not contain valid UTF-8"

namespace FileNode

def maxNameSize : Nat := 255

def child? (entries : List (String × FileNode)) (name : String) : Option FileNode :=
  (entries.find? (·.1 == name)).map (·.2)

/-- Walks from a node along the parts of a path. `parents` are the directories above the node,
nearest first; the root is its own parent. -/
def walk (parents : List FileNode) (node : FileNode) : List (List Char) → Except FileFault FileNode
  | [] => .ok node
  | part :: parts =>
    match node with
    | file _ => .error .notDirectory
    | directory entries =>
      match Path.componentOf part with
      | some (.name name) =>
        if maxNameSize < name.utf8ByteSize then .error .nameTooLong
        else
          match child? entries name with
          | some next => walk (node :: parents) next parts
          | none => .error .notFound
      | some .parent =>
        match parents with
        | [] => walk [] node parts
        | above :: parents => walk parents above parts
      | _ => walk parents node parts

def setEntry (name : String) (node : FileNode) : List (String × FileNode) → List (String × FileNode)
  | [] => [(name, node)]
  | entry :: entries =>
    if entry.1 = name then (name, node) :: entries else entry :: setEntry name node entries

/-- Puts a node where the names lead, in directories that are made on the way. A directory that
is there already keeps its entries. -/
def put (new : FileNode) : List String → FileNode → FileNode
  | [], old =>
    match old, new with
    | directory _, directory [] => old
    | _, _ => new
  | name :: names, node =>
    let entries := match node with
      | directory entries => entries
      | file _ => []
    directory (setEntry name (put new names ((child? entries name).getD (directory []))) entries)

end FileNode

/-- A tree with its working directory, given by the names that lead there from the root. Names are
text: those that a disk may hold besides, bytes that encode no text, are left out. The size of a
path is limited where a single path is looked up; what lies below a directory is listed at any
depth. -/
structure FileTree where
  root : FileNode
  working : List String

namespace FileTree

def empty : FileTree := ⟨.directory [], []⟩

def put (t : FileTree) (path : String) (new : FileNode) : FileTree :=
  let start := if Path.isAbsolute path then [] else t.working
  let names := (Path.components path).foldl (fun names part => match part with
    | .name s => names ++ [s]
    | .parent => names.dropLast
    | _ => names) start
  { t with root := FileNode.put new names t.root }

def maxPathSize : Nat := 4095

def node (t : FileTree) (path : String) : Except FileFault FileNode :=
  if path.isEmpty then .error .notFound
  else if path.toList.contains '\x00' then .error .nulByte
  else if maxPathSize < path.utf8ByteSize then .error .nameTooLong
  else
    let working := if Path.isAbsolute path then [] else t.working.map String.toList
    t.root.walk [] (working ++ Path.parts path)

def read (t : FileTree) (path : String) : Except FileFault (List UInt8) :=
  match t.node path with
  | .ok (.file content) => .ok content
  | .ok (.directory _) => .error .isDirectory
  | .error e => .error e

def readText (t : FileTree) (path : String) : Except FileFault String := do
  match Text.Utf8.decode (← t.read path) with
  | .ok cs => .ok (String.ofList cs)
  | .error _ => .error .notText

def pathExists (t : FileTree) (path : String) : Bool := (t.node path).isOk

def entries (t : FileTree) (path : String) : List (String × FileNode) :=
  match t.node path with
  | .ok (.directory entries) => entries
  | _ => []

end FileTree

end LinkageCheck
