import LinkageCheck.Decimal.Binary64

/-! TOML values, and the rules by which keys and headers add to the tables of a document. -/

namespace LinkageCheck.Toml

/-- How a table came to be: by its own header, as part of a longer header, by a dotted key, or
as an inline value. -/
inductive TableOrigin where
  | header | implied | dotted | inline
  deriving DecidableEq, Repr

inductive Value where
  | string (s : String)
  | integer (i : Int)
  | float (x : Decimal.Binary64)
  | boolean (b : Bool)
  | datetime
  | array (grows : Bool) (items : List Value)
  | table (origin : TableOrigin) (entries : List (String × Value))

abbrev Entries := List (String × Value)

def Value.typeName : Value → String
  | string _ => "string"
  | integer _ => "integer"
  | float _ => "float"
  | boolean _ => "boolean"
  | datetime => "datetime"
  | array .. => "array"
  | table .. => "table"

namespace Entries

def get? (es : Entries) (key : String) : Option Value :=
  (es.find? (·.1 == key)).map (·.2)

def replace (es : Entries) (key : String) (v : Value) : Entries :=
  es.map fun e => if e.1 == key then (key, v) else e

def erase (es : Entries) (key : String) : Entries :=
  es.filter (·.1 != key)

/-- Changes the table at the end of a path. A table that is missing on the way is made; an array
of tables stands for its last one. With `dotted` the path is part of a dotted key, which may not
go through a table that has a single header. -/
def change (dotted : Bool) (f : TableOrigin → Entries → Option Entries) :
    List String → TableOrigin → Entries → Option Entries
  | [], origin, es => f origin es
  | key :: path, _, es =>
    match get? es key with
    | none => do
      let origin := if dotted then .dotted else .implied
      return es ++ [(key, .table origin (← change dotted f path origin []))]
    | some (.table .inline _) => none
    | some (.table origin inner) => do
      guard !(dotted && origin == .header)
      return replace es key (.table origin (← change dotted f path origin inner))
    | some (.array true items) =>
      match items.getLast? with
      | some (.table origin inner) => do
        let last := .table origin (← change dotted f path origin inner)
        return replace es key (.array true (items.dropLast ++ [last]))
      | _ => none
    | some _ => none

/-- Adds a value under a key that may have dots. A key without dots may not add to a table that
dotted keys made, nor a dotted one to any other. -/
def insert (path : List String) (key : String) (v : Value) (origin : TableOrigin) (es : Entries) :
    Option Entries :=
  change true (fun origin es => do
    guard ((origin == .dotted) == !path.isEmpty && (get? es key).isNone)
    return es ++ [(key, v)]) path origin es

/-- Opens the table of a header, which may have been implied before; it then moves behind the other
entries. -/
def openTable (path : List String) (key : String) (es : Entries) : Option Entries :=
  change false (fun _ es =>
    match get? es key with
    | none => some (es ++ [(key, .table .header [])])
    | some (.table .implied inner) => some (erase es key ++ [(key, .table .header inner)])
    | some _ => none) path .header es

def openArrayTable (path : List String) (key : String) (es : Entries) : Option Entries :=
  change false (fun _ es =>
    match get? es key with
    | none => some (es ++ [(key, .array true [.table .header []])])
    | some (.array true items) =>
      some (replace es key (.array true (items ++ [.table .header []])))
    | some _ => none) path .header es

end Entries

end LinkageCheck.Toml
