import LinkageCheck.Options.Basic
import LinkageCheck.Text.Basic

/-! The option directives of an expected-results file: `name=value` assigns an option,
`name(value)` does the same, and `reset()` goes back to the options that the file started with.
Values are booleans, numbers, and strings in single or double quotes without escapes. -/

namespace LinkageCheck

inductive Directive where
  | assign (name : String) (value : OptionValue)
  | call (name : String) (arguments : List OptionValue)
  deriving DecidableEq

namespace Directive

inductive Malformation where
  | noName
  | noForm
  | openString
  | missingValue
  | badString (text : String)
  | unsupported (text : String)
  deriving DecidableEq, Repr

def Malformation.message : Malformation → String
  | noName => "expected an option name"
  | noForm => "expected `=value` or `(args)` after the option name"
  | openString => "unterminated string"
  | missingValue => "missing value"
  | badString text => s!"bad string literal {text}"
  | unsupported text => s!"unsupported value `{text}`"

inductive Error where
  | malformed (text : String) (reason : Malformation)
  | arity (name : String) (expected found : Nat)
  | option (error : OptionError)
  deriving DecidableEq, Repr

def Error.message : Error → String
  | malformed text reason => s!"malformed directive `{text}`: {reason.message}"
  | arity name expected found => s!"`{name}()` takes {expected} argument(s), found {found}"
  | option error => error.message

/-! ### Reading -/

def isNameStart (c : Char) : Bool := c == '_' || c.isAlpha

def isNamePart (c : Char) : Bool := isNameStart c || c.isDigit

def splitName : List Char → List Char × List Char
  | [] => ([], [])
  | c :: cs =>
    if isNameStart c then (c :: cs.takeWhile isNamePart, cs.dropWhile isNamePart) else ([], c :: cs)

/-- Cuts at the commas outside quotes. `quote` is the quote that is open; a string left open is an
error. -/
def splitCommas : Option Char → List Char → Except Malformation (List (List Char))
  | none, [] => .ok [[]]
  | some _, [] => .error .openString
  | quote, c :: cs =>
    if quote = none ∧ c = ',' then (splitCommas none cs).map ([] :: ·)
    else
      let quote := match quote with
        | some q => if c = q then none else some q
        | none => if c = '\'' ∨ c = '"' then some c else none
      (splitCommas quote cs).map fun
        | [] => [[c]]
        | part :: parts => (c :: part) :: parts

def splitArguments (inner : List Char) : Except Malformation (List (List Char)) :=
  if (Text.trim inner).isEmpty then .ok [] else (splitCommas none inner).map (·.map Text.trim)

/-- What stands between two copies of the opening quote, if the quote is nowhere inside. -/
def readString (quote : Char) (text : List Char) : Except Malformation OptionValue :=
  let inner := (text.drop 1).dropLast
  if 2 ≤ text.length ∧ text.getLast? = some quote ∧ quote ∉ inner then
    .ok (.text (String.ofList inner))
  else .error (.badString (String.ofList text))

def isNumeric (text : List Char) : Bool :=
  text.all (fun c => c.isDigit || c ∈ ['+', '-', '.', 'e', 'E']) && text.any Char.isDigit

def readNumber? (text : List Char) : Option OptionValue :=
  if isNumeric text then
    match Decimal.readInt64? text with
    | some i => some (.integer i)
    | none => (Decimal.readBinary64? text).map .number
  else none

def readValue (text : List Char) : Except Malformation OptionValue :=
  if text.isEmpty then .error .missingValue
  else if text = "True".toList ∨ text = "true".toList then .ok (.boolean true)
  else if text = "False".toList ∨ text = "false".toList then .ok (.boolean false)
  else if text.head? = some '\'' then readString '\'' text
  else if text.head? = some '"' then readString '"' text
  else
    match readNumber? text with
    | some v => .ok v
    | none => .error (.unsupported (String.ofList text))

def readForm (name : String) : List Char → Except Malformation Directive
  | '=' :: cs => (readValue (Text.trim cs)).map (.assign name)
  | '(' :: cs =>
    if cs.getLast? = some ')' then do
      let arguments ← splitArguments cs.dropLast
      return .call name (← arguments.mapM readValue)
    else .error .noForm
  | _ => .error .noForm

def readTrimmed (source : List Char) : Except Malformation Directive :=
  match splitName source with
  | ([], _) => .error .noName
  | (name, rest) => readForm (String.ofList name) (Text.trimStart rest)

def read (text : String) : Except Error Directive :=
  let source := Text.trim text.toList
  (readTrimmed source).mapError (.malformed (String.ofList source))

/-! ### Applying -/

/-- `baseline` holds the options that `reset()` restores. An unknown name is reported before a wrong
number of arguments. -/
def apply (baseline o : Options) : Directive → Except Error Options
  | assign name value => (o.setByName name value).mapError .option
  | call name arguments =>
    if name = "reset" then
      if arguments.isEmpty then .ok baseline else .error (.arity name 0 arguments.length)
    else
      match arguments with
      | [value] => (o.setByName name value).mapError .option
      | _ =>
        match o.getByName name with
        | .ok _ => .error (.arity name 1 arguments.length)
        | .error e => .error (.option e)

end Directive

end LinkageCheck
