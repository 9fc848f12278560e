import LinkageCheck.Toml.Document

/-! Reading typed values out of TOML values. -/

namespace LinkageCheck.Toml

def dateKey : String := "$__toml_private_datetime"

namespace Value

def string? : Value → Option String
  | string s => some s
  | _ => none

def boolean? : Value → Option Bool
  | boolean b => some b
  | _ => none

def natural? : Value → Option Nat
  | integer i => if 0 ≤ i then some i.toNat else none
  | _ => none

def list? {α : Type} (item : Value → Option α) : Value → Option (List α)
  | array _ items => items.mapM item
  | _ => none

def entries? : Value → Option Entries
  | table _ es => some es
  | datetime => some [(dateKey, .string "")]
  | _ => none

def date? : Entries → Option Value
  | (_, string s) :: _ => if isDatetimeText s then some datetime else none
  | _ => none

mutual

/-- A value of any type. A table that begins with the key of a date is that date, whatever its other
entries are. -/
def any? : Value → Option Value
  | array grows items => (anyItems? items).map (array grows)
  | table origin es =>
    if es.head?.any (·.1 == dateKey) then date? es else (anyEntries? es).map (table origin)
  | v => some v

def anyItems? : List Value → Option (List Value)
  | [] => some []
  | v :: vs => do
    let v ← v.any?
    return v :: (← anyItems? vs)

def anyEntries? : List (String × Value) → Option (List (String × Value))
  | [] => some []
  | (key, v) :: es => do
    let v ← v.any?
    return (key, v) :: (← anyEntries? es)

end

def anyTable? (v : Value) : Option Entries := v.entries?.bind anyEntries?

/-- The fields of a structure: from a table by name, or from an array by place. -/
def fields? (names : List String) : Value → Option Entries
  | array _ items => some (names.zip items)
  | v => v.entries?

end Value

namespace Entries

def required {α : Type} (es : Entries) (name : String) (read : Value → Option α) : Option α :=
  (es.get? name).bind read

def optional {α : Type} (es : Entries) (name : String) (read : Value → Option α) :
    Option (Option α) :=
  match es.get? name with
  | none => some none
  | some v => (read v).map some

def withDefault {α : Type} (es : Entries) (name : String) (read : Value → Option α) (value : α) :
    Option α :=
  (es.optional name read).map (·.getD value)

end Entries

end LinkageCheck.Toml
