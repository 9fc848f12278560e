import LinkageCheck.Toml.Lexical

/-! TOML documents: values, and the lines with keys and headers. -/

namespace LinkageCheck.Toml

open Text (Reader)
open Text.Reader

def arrayItems (value : Reader Value) : Nat → Reader (List Value)
  | 0 => failure
  | n + 1 => do
    anySpace
    if ← accept "]" then return []
    let v ← value
    anySpace
    if ← accept "," then return v :: (← arrayItems value n)
    expect ']'
    return [v]

def inlineEntries (value : Reader Value) : Nat → Entries → Reader Entries
  | 0, _ => failure
  | n + 1, es => do
    let (path, key) ← dottedKey
    expect '='
    space
    let es ← es.insert path key (← value) .inline
    space
    if ← accept "," then inlineEntries value n es
    else
      expect '\x7d'
      return es

/-- A value; arrays and inline tables may nest `limit` levels deep. -/
def value (limit : Nat) : Reader Value := do
  let deeper : Reader Value := match limit with
    | 0 => failure
    | limit + 1 => value limit
  match ← peek? with
  | none => failure
  | some c =>
    if c == '"' || c == '\'' then return .string (← string)
    else if c == '[' then
      guard (0 < limit)
      expect '['
      return .array false (← arrayItems deeper ((← get).length + 1))
    else if c == '\x7b' then
      guard (0 < limit)
      expect '\x7b'
      space
      if ← accept "\x7d" then return .table .inline []
      return .table .inline (← inlineEntries deeper ((← get).length + 1) [])
    else if ← accept "true" then return .boolean true
    else if ← accept "false" then return .boolean false
    else number

structure Document where
  root : Entries
  header : List String

namespace Document

def keyLine (d : Document) : Reader Document := do
  let (path, key) ← dottedKey
  expect '='
  space
  let v ← value 79
  let root ← d.root.change false (Entries.insert path key v) d.header .header
  return { d with root }

def headerLine (d : Document) : Reader Document := do
  let double ← accept "[["
  if !double then expect '['
  let (path, key) ← dottedKey
  guard (← accept (if double then "]]" else "]"))
  let root ← if double then d.root.openArrayTable path key else d.root.openTable path key
  return ⟨root, path ++ [key]⟩

def lines : Nat → Document → Reader Document
  | 0, _ => failure
  | n + 1, d => do
    space
    match ← peek? with
    | none => return d
    | some c =>
      let d ←
        if c == '#' || c == '\r' || c == '\n' then pure d
        else if c == '[' then d.headerLine
        else d.keyLine
      lineRest
      lines n d

end Document

def parse? (text : String) : Option Entries :=
  let cs := if text.toList.head? = some '\ufeff' then text.toList.drop 1 else text.toList
  (Document.lines (cs.length + 1) ⟨[], []⟩ |>.run? cs).map (·.root)

end LinkageCheck.Toml
