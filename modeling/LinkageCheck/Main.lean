import LinkageCheck.CommandLine

/-! The program: it reads the files that a run needs into a tree, runs, and prints. -/

namespace LinkageCheck.Program

open CommandLine

def addDirectories (t : FileTree) (path : String) : IO FileTree := do
  let base ← IO.currentDir
  let mut t := t
  let mut place := if Path.isAbsolute path then "/" else "."
  for part in Path.parts path do
    place := Path.join place (String.ofList part)
    if ← (base / place).isDir then t := t.put place (.directory [])
  return t

def addFile (t : FileTree) (path : String) : IO FileTree := do
  let place := (← IO.currentDir) / path
  let t ← addDirectories t path
  if ← place.isDir then return t
  else if ← place.pathExists then return t.put path (.file (← IO.FS.readBinFile place).toList)
  else return t

partial def addListing (t : FileTree) (path : String) : IO FileTree := do
  let place := (← IO.currentDir) / path
  if ← place.isDir then
    let mut t ← addDirectories t path
    for entry in ← place.readDir do
      t ← addListing t (Path.join path entry.fileName)
    return t
  else return t.put path (.file [])

def addInputs (i : Invocation) : IO FileTree := do
  let base := (← IO.currentDir).toString
  let names := (Path.components base).filterMap fun
    | .name s => some s
    | _ => none
  let t := { FileTree.empty with working := names }.put "." (.directory [])
  let t ← (i.suite.toList ++ [i.expectedFailures]).foldlM addFile t
  let t ← if i.discover then addListing t i.config.srcdir else pure t
  match i.selectSuite t with
  | .ok s => (i.inputs s).foldlM addFile t
  | .error _ => return t

def environment : IO Environment := do
  return ⟨← IO.getEnv "srcdir", ← IO.getEnv "LINK_GRAMMAR_DATA"⟩

def exit (arguments : List String) : IO Exit := do
  let e ← environment
  match Invocation.parse? e arguments with
  | none => return CommandLine.run .empty e arguments
  | some i =>
    try return CommandLine.run (← addInputs i) e arguments
    catch error => return .fatal error.toString

end LinkageCheck.Program

def main (arguments : List String) : IO UInt32 := do
  let exit ← LinkageCheck.Program.exit arguments
  IO.print exit.output
  IO.eprint exit.errors
  return exit.code.toUInt32
