import LinkageCheck.Run.ExpectedFailures
import LinkageCheck.Text.Basic
import LinkageCheck.Text.LineDiff

/-! How failures and the outcome of a file are shown. No line ends in a blank: where lines
differ, the blanks at their ends are drawn as dots. -/

namespace LinkageCheck

namespace FailureText

def join (lines : List String) : String :=
  String.join (lines.map fun l => Text.trimmedEnd l ++ "\n")

/-- A line that one side lacks, with a dot for each blank at its end. -/
def changedLine (sign : String) (line : List Char) : String :=
  let shown := Text.trimEnd line
  let dots := List.replicate (line.length - shown.length) '·'
  Text.trimmedEnd (s!"    {sign} " ++ String.ofList shown) ++ String.ofList dots

def diffLine : Text.LineDiff.Change × List Char → String
  | (change, line) =>
    let line := Text.dropTail (fun c => c == '\n' || c == '\r') line
    match change with
    | .kept => "      " ++ String.ofList line
    | .removed => changedLine "-" line
    | .added => changedLine "+" line

/-- Removed lines are the expected ones, added lines the actual ones. -/
def diff (expected actual : String) : List String :=
  (Text.LineDiff.changes (Text.LineDiff.splitLines expected.toList)
    (Text.LineDiff.splitLines actual.toList)).map diffLine

def details : Mismatch → List String
  | .different _ expected actual => diff expected actual
  | .noMatch expected _ => (Text.lines expected.toList).map ("    - " ++ String.ofList ·)
  | _ => []

def trimmedLines (s : String) : List (List Char) := (Text.lines s.toList).map Text.trimEnd

def hint? : Mismatch → Option String
  | .different kind expected actual =>
    if kind = .wordPositions ∧ Comparison.isMarked actual ∧ !Comparison.isMarked expected then
      some ("the engine guessed a spelling; "
        ++ "mark the guessed word with [~] so all candidates are searched")
    else if trimmedLines expected = trimmedLines actual then
      some "lines differ only in trailing whitespace"
    else none
  | .noLinkage _ =>
    some "the engine found no linkage; check max_null_count and the dictionary version"
  | .unexpectedLinkage => some "the file asserts this sentence has no linkage at all"
  | .tooFewLinkages =>
    some "the file expects more linkages than the engine produced; check linkage_limit"
  | .noMatch .. =>
    some "no candidate had these word positions; spell_guess may be too low"

def label : FailureState → String
  | .regression => "FAIL"
  | .known => "FAIL (known)"
  | .pending => "FAIL (pending)"

end FailureText

def CheckFailure.text (f : CheckFailure) (state : FailureState) : String :=
  let sentence := f.sentence.elim [] fun s =>
    ["  sentence: " ++ Text.quoted s ++ s!" (linkage {f.linkage})", ""]
  let hint := (FailureText.hint? f.kind).elim [] fun h => ["", "  hint: " ++ h]
  FailureText.join (["", s!"{FailureText.label state}: {f.reference}", ""] ++ sentence
    ++ ["  " ++ f.kind.message] ++ FailureText.details f.kind ++ hint)

def summaryText (fileName : String) (passed failed expected regressions : Nat) : String :=
  let status := if 0 < regressions then "FAIL" else "PASS"
  FailureText.join ["", s!"{status}: {fileName}",
    s!"  {passed} passed, {failed} failed ({expected} expected, {regressions} regressions)"]

end LinkageCheck
