import BatchShader.Builtin.Catalogue
import BatchShader.Builtin.SelfCheck

/-
  What the command line prints: a table of overloads with their slots, and the outcome of the
  comparison of the two slots.

  Every cell but the last of a line is filled with blanks to the width of its column. The first
  column is as wide as the longest signature shown.
-/

namespace BatchShader.Builtin

/-- Text filled with blanks on the right up to a width; longer text stays as it is. -/
def padRight (width : Nat) (s : String) : String :=
  s ++ String.ofList (List.replicate (width - s.length) ' ')

/-- One line of the table. -/
def tableRow (width : Nat) (signature runtime constant : String) : String :=
  "  " ++ padRight width signature ++ "  " ++ padRight 22 runtime ++ "  " ++ constant

/-- The overloads with one of the given names; all overloads if none is given. -/
def shown (r : Registry Implementation) (names : List String) : List Builtin :=
  if names.isEmpty then r.toList else r.toList.filter (names.contains ·.signature.name)

/-- The table of the overloads with one of the given names. -/
def table (r : Registry Implementation) (names : List String) : List String :=
  let overloads := shown r names
  let width := (overloads.map (·.signature.text.length)).foldl max 0
  ["", tableRow width "overload" "runtime" "constant",
    "  " ++ String.ofList (List.replicate (width + 50) '─')]
  ++ overloads.map (fun b =>
    tableRow width b.signature.text b.body.runtime.text b.body.constant.text)
  ++ [""]

def Disagreement.text (d : Disagreement) : String :=
  let runtime := match d.runtime with
    | some v => v.text
    | none => "<none>"
  "    " ++ d.signature.text ++ " [" ++ d.paths.name ++ "] row " ++ toString d.row ++ ": runtime "
    ++ runtime ++ ", constant " ++ d.constant.text

/-- How many disagreements are written out. -/
def maxWrittenOut : Nat := 20

/-- The outcome of a comparison. -/
def CheckReport.lines (r : CheckReport) : List String :=
  let n := r.disagreements.length
  ["  self-check: " ++ toString r.checked ++ " overloads, " ++ toString r.comparisons
    ++ " row comparisons, " ++ toString n ++ " mismatches"]
  ++ (r.disagreements.take maxWrittenOut).map Disagreement.text
  ++ (if n > maxWrittenOut then ["    ... " ++ toString (n - maxWrittenOut) ++ " more"] else [])
  ++ [""]

/-- The output of the command line, and how it exits. -/
structure Overview where
  lines : List String
  exitCode : UInt8

/-- Each line with its end. -/
def Overview.text (o : Overview) : String := String.join (o.lines.map (· ++ "\n"))

/-- The table for some names, then the comparison of all overloads. It fails if any disagree. -/
def overview (names : List String) : Outcome Overview := do
  let r ← standard
  let report ← selfCheck r
  return ⟨table r names ++ report.lines, if report.isClean then 0 else 1⟩

end BatchShader.Builtin
