import LinkageCheck.Decimal.Reader
import LinkageCheck.Options.Value

/-! Parse options: a record of typed cells, each addressable by its name. -/

namespace LinkageCheck

open Decimal (Binary64)

inductive OptionName where
  | verbosity | linkageLimit | minNullCount | maxNullCount | islandsOk | shortLength
  | allShortConnectors | displayMorphology | spellGuess | disjunctCost | maxParseTime
  | repeatableRand | test | debug | dialect
  deriving DecidableEq, Repr

namespace OptionName

def all : List OptionName :=
  [verbosity, linkageLimit, minNullCount, maxNullCount, islandsOk, shortLength,
    allShortConnectors, displayMorphology, spellGuess, disjunctCost, maxParseTime,
    repeatableRand, test, debug, dialect]

def text : OptionName → String
  | verbosity => "verbosity"
  | linkageLimit => "linkage_limit"
  | minNullCount => "min_null_count"
  | maxNullCount => "max_null_count"
  | islandsOk => "islands_ok"
  | shortLength => "short_length"
  | allShortConnectors => "all_short_connectors"
  | displayMorphology => "display_morphology"
  | spellGuess => "spell_guess"
  | disjunctCost => "disjunct_cost"
  | maxParseTime => "max_parse_time"
  | repeatableRand => "repeatable_rand"
  | test => "test"
  | debug => "debug"
  | dialect => "dialect"

def ofText? (s : String) : Option OptionName := all.find? (·.text == s)

end OptionName

inductive OptionError where
  | unknown (name : String)
  | mismatch (name : String) (expected found : OptionKind)
  | outOfRange (name : String) (value : Int)
  deriving DecidableEq, Repr

def OptionError.message : OptionError → String
  | unknown name => s!"unknown parse option `{name}`"
  | mismatch name expected found =>
    s!"parse option `{name}` expects {expected.description}, found {found.description}"
  | outOfRange name value => s!"parse option `{name}` out of range: {value}"

/-- The options of one parse request. Counts are natural numbers; `verbosity` and `maxParseTime`
(seconds, negative for no limit) stay within 32 bits. -/
structure Options where
  verbosity : Int
  linkageLimit : Nat
  minNullCount : Nat
  maxNullCount : Nat
  islandsOk : Bool
  shortLength : Nat
  allShortConnectors : Bool
  displayMorphology : Bool
  spellGuess : Nat
  disjunctCost : Binary64
  maxParseTime : Int
  repeatableRand : Bool
  test : String
  debug : String
  dialect : String
  deriving DecidableEq

namespace Options

def standardDisjunctCost : Binary64 := .ofQuotient false 27 10

def standard : Options where
  verbosity := 0
  linkageLimit := 100
  minNullCount := 0
  maxNullCount := 0
  islandsOk := false
  shortLength := 16
  allShortConnectors := false
  displayMorphology := true
  spellGuess := 7
  disjunctCost := standardDisjunctCost
  maxParseTime := -1
  repeatableRand := true
  test := ""
  debug := ""
  dialect := ""

def get (o : Options) : OptionName → OptionValue
  | .verbosity => .integer o.verbosity
  | .linkageLimit => .integer o.linkageLimit
  | .minNullCount => .integer o.minNullCount
  | .maxNullCount => .integer o.maxNullCount
  | .islandsOk => .boolean o.islandsOk
  | .shortLength => .integer o.shortLength
  | .allShortConnectors => .boolean o.allShortConnectors
  | .displayMorphology => .boolean o.displayMorphology
  | .spellGuess => .integer o.spellGuess
  | .disjunctCost => .number o.disjunctCost
  | .maxParseTime => .integer o.maxParseTime
  | .repeatableRand => .boolean o.repeatableRand
  | .test => .text o.test
  | .debug => .text o.debug
  | .dialect => .text o.dialect

/-! Each cell takes the values of its type; a number also takes an integer. -/

def readBoolean (name : OptionName) : OptionValue → Except OptionError Bool
  | .boolean b => .ok b
  | v => .error (.mismatch name.text .boolean v.kind)

def readInt32 (name : OptionName) : OptionValue → Except OptionError Int
  | .integer i =>
    if Decimal.fitsBits 32 i then .ok i else .error (.outOfRange name.text i)
  | v => .error (.mismatch name.text .integer v.kind)

def readCount (name : OptionName) : OptionValue → Except OptionError Nat
  | .integer i => if 0 ≤ i then .ok i.toNat else .error (.outOfRange name.text i)
  | v => .error (.mismatch name.text .integer v.kind)

def readNumber (name : OptionName) : OptionValue → Except OptionError Binary64
  | .number x => .ok x
  | .integer i => .ok (.ofInt i)
  | v => .error (.mismatch name.text .number v.kind)

def readText (name : OptionName) : OptionValue → Except OptionError String
  | .text s => .ok s
  | v => .error (.mismatch name.text .text v.kind)

def set (o : Options) (name : OptionName) (v : OptionValue) : Except OptionError Options :=
  match name with
  | .verbosity => (readInt32 name v).map fun x => { o with verbosity := x }
  | .linkageLimit => (readCount name v).map fun x => { o with linkageLimit := x }
  | .minNullCount => (readCount name v).map fun x => { o with minNullCount := x }
  | .maxNullCount => (readCount name v).map fun x => { o with maxNullCount := x }
  | .islandsOk => (readBoolean name v).map fun x => { o with islandsOk := x }
  | .shortLength => (readCount name v).map fun x => { o with shortLength := x }
  | .allShortConnectors => (readBoolean name v).map fun x => { o with allShortConnectors := x }
  | .displayMorphology => (readBoolean name v).map fun x => { o with displayMorphology := x }
  | .spellGuess => (readCount name v).map fun x => { o with spellGuess := x }
  | .disjunctCost => (readNumber name v).map fun x => { o with disjunctCost := x }
  | .maxParseTime => (readInt32 name v).map fun x => { o with maxParseTime := x }
  | .repeatableRand => (readBoolean name v).map fun x => { o with repeatableRand := x }
  | .test => (readText name v).map fun x => { o with test := x }
  | .debug => (readText name v).map fun x => { o with debug := x }
  | .dialect => (readText name v).map fun x => { o with dialect := x }

def lookup (name : String) : Except OptionError OptionName :=
  match OptionName.ofText? name with
  | some n => .ok n
  | none => .error (.unknown name)

def getByName (o : Options) (name : String) : Except OptionError OptionValue :=
  (lookup name).map o.get

def setByName (o : Options) (name : String) (v : OptionValue) : Except OptionError Options := do
  o.set (← lookup name) v

def changes (o : Options) : List (String × String) :=
  OptionName.all.filterMap fun n =>
    let shown := (o.get n).display
    if shown == (standard.get n).display then none else some (n.text, shown)

end Options

end LinkageCheck
