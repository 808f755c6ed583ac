import BatchShader.Failure

/-
  How many rows one kernel call may cover.
-/

namespace BatchShader

/-- A policy for runs of live rows. Results never depend on it. -/
inductive VectorPaths
  /-- Runs of eight, then of four, then single rows. -/
  | wide8
  /-- Runs of four, then single rows. -/
  | wide4
  /-- Single rows only. -/
  | scalar
deriving DecidableEq, Repr

namespace VectorPaths

def all : List VectorPaths := [wide8, wide4, scalar]

def allowsEight (p : VectorPaths) : Bool := p matches wide8

def allowsFour (p : VectorPaths) : Bool := p matches wide8 | wide4

def name : VectorPaths → String
  | wide8 => "wide8"
  | wide4 => "wide4"
  | scalar => "scalar"

/-- Equality of texts up to the case of ASCII letters. -/
def equalIgnoringCase (s t : String) : Bool :=
  s.toList.map Char.toLower == t.toList.map Char.toLower

/-- The policy with a given name, in any case. -/
def parse (s : String) : Outcome VectorPaths :=
  match all.find? fun p => equalIgnoringCase p.name s with
  | some p => .ok p
  | none => Outcome.fail (.config (.unknownPaths s))

end VectorPaths

end BatchShader
