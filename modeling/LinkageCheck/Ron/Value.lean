import LinkageCheck.Ron.Lexical

/-! RON values: lists, tuples, options, structures with named fields, and values of any shape
that are passed over. -/

namespace LinkageCheck.Ron

open Text (Reader)
open Text.Reader

/-- The extensions that a text can enable at its head; only the first changes what is read. -/
structure Extensions where
  implicitSome : Bool
  deriving DecidableEq, Repr

def extensionNames : List String :=
  ["implicit_some", "unwrap_newtypes", "unwrap_variant_newtypes"]

variable {α σ : Type}

/-! ### Items between brackets -/

/-- Takes at most `n` items up to a closing character, each changing what was read so far. Each
but the first needs a comma before it. -/
def foldItems (close : Char) (item : σ → Reader σ) : Nat → Bool → σ → Reader σ
  | 0, _, _ => failure
  | n + 1, separated, s => do
    space
    if (← peek?) == some close then
      expect close
      return s
    else
      guard separated
      let s ← item s
      foldItems close item n (← comma) s

def itemsUpTo (close : Char) (item : σ → Reader σ) (start : σ) : Reader σ := do
  foldItems close item ((← get).length + 1) true start

def list (item : Reader α) : Reader (List α) := do
  expect '['
  let reversed ← itemsUpTo ']' (fun all => return (← item) :: all) []
  return reversed.reverse

def tuple (body : Reader α) : Reader α := do
  expect '('
  space
  let a ← body
  discard comma
  expect ')'
  return a

def nextItem (item : Reader α) : Reader α := do
  guard (← comma)
  item

def option (e : Extensions) (item : Reader α) : Reader (Option α) := do
  if ← keyword "None" then return none
  let opened ← if ← keyword "Some" then (do space; accept "(") else pure false
  if opened then
    space
    let a ← item
    discard comma
    expect ')'
    return some a
  else
    guard e.implicitSome
    return some (← item)

def fieldName : Reader String := do
  let name ← identifier
  space
  expect ':'
  space
  return name

/-! ### Values passed over -/

def startsWithField (cs : List Char) : Option Bool :=
  match (do discard identifier; space).run cs with
  | some (_, rest) => rest.head?.map (· == ':')
  | none => some false

/-- Passes over a value of any shape. A value inside brackets is two levels deeper than the
value it is part of, and `limit` levels are left. -/
def skipValue (e : Extensions) (limit : Nat) : Reader Unit := do
  let deeper (levels : Nat) : Reader Unit :=
    if _h : 0 < levels ∧ levels ≤ limit then skipValue e (limit - levels) else failure
  let bracketed (close : Char) (item : Reader Unit) : Reader Unit :=
    if 0 < limit then itemsUpTo close (fun _ => item) () else failure
  let parenthesized : Reader Unit := do
    if (← peek?) == some '(' then
      expect '('
      space
      if ← startsWithField (← get) then bracketed ')' (do discard fieldName; deeper 2)
      else bracketed ')' (deeper 2)
  if startsWithWord "Some" (← get) then
    discard (option e (deeper 1))
    return ()
  for name in ["true", "false", "None", "inf", "-inf", "NaN"] do
    if ← keyword name then return ()
  if ← accept "()" then return ()
  if (← optional identifier).isSome then
    space
    parenthesized
    return ()
  match ← peek? with
  | none => failure
  | some c =>
    if c == '(' then parenthesized
    else if c == '[' then
      expect '['
      bracketed ']' (deeper 2)
    else if c == '\x7b' then
      expect '\x7b'
      bracketed '\x7d' do
        deeper 2
        space
        expect ':'
        space
        deeper 2
    else if c.isDigit || c == '+' || c == '-' then anyNumber
    else if c == '.' then discard float
    else if c == '"' || c == 'r' then discard string
    else if c == '\'' then discard character
    else failure
termination_by limit
decreasing_by omega

/-- A structure, with its name before it or without. `field` reads a known field into what was
read so far; other fields are passed over, with `limit` levels left for them. -/
def record (e : Extensions) (limit : Nat) (name : String) (field : String → Option (σ → Reader σ))
    (start : σ) : Reader σ := do
  if (← peek?).any isIdentPart then guard ((← identifier) == name)
  space
  expect '('
  let item (s : σ) : Reader σ := do
    match field (← fieldName) with
    | some known => known s
    | none =>
      skipValue e limit
      return s
  itemsUpTo ')' item start

/-! ### Whole texts -/

def extensionList : Nat → Reader (List String)
  | 0 => failure
  | n + 1 => do
    let name ← identifier
    guard (name ∈ extensionNames)
    let separated ← comma
    let more := (← peek?).any isIdentPart
    guard (separated || !more)
    if more then return name :: (← extensionList n) else return [name]

def attributes : Nat → Reader (List String)
  | 0 => failure
  | n + 1 => do
    space
    if (← peek?) != some '#' then return []
    for token in ["#", "!", "[", "enable", "("] do
      guard (← accept token)
      space
    let names ← extensionList ((← get).length + 1)
    for token in [")", "]"] do
      space
      guard (← accept token)
    return names ++ (← attributes n)

def parse? (value : Extensions → Reader α) (text : String) : Option α :=
  let whole : Reader α := do
    let names ← attributes ((← get).length + 1)
    let a ← value ⟨names.contains "implicit_some"⟩
    space
    return a
  whole.run? text.toList

end LinkageCheck.Ron
