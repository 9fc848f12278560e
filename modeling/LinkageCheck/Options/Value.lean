import LinkageCheck.Decimal.Shortest
import LinkageCheck.Text.Quoted

/-! Scalar option values and the words that errors use for their kinds. -/

namespace LinkageCheck

open Decimal (Binary64)

inductive OptionKind where
  | boolean | integer | number | text
  deriving DecidableEq, Repr

def OptionKind.description : OptionKind → String
  | .boolean => "a boolean"
  | .integer => "an integer"
  | .number => "a number"
  | .text => "a string"

inductive OptionValue where
  | boolean (b : Bool)
  | integer (i : Int)
  | number (x : Binary64)
  | text (s : String)
  deriving DecidableEq

namespace OptionValue

def kind : OptionValue → OptionKind
  | boolean _ => .boolean
  | integer _ => .integer
  | number _ => .number
  | text _ => .text

def display : OptionValue → String
  | boolean true => "True"
  | boolean false => "False"
  | integer i => toString i
  | number x => x.text
  | text s => Text.quoted s

end OptionValue

end LinkageCheck
