import BatchShader.Builtin.Overview

/-
  The command line: prints the overloads with one of the given names, all of them if none is given,
  and compares the slots of every overload.
-/

open BatchShader

def main (args : List String) : IO UInt32 := do
  match Builtin.overview args with
  | .ok o =>
    IO.print o.text
    return o.exitCode.toUInt32
  | .error (.error e) =>
    IO.eprintln ("Error: " ++ e.message)
    return 1
  | .error .outOfRange =>
    IO.eprintln "Error: row out of range"
    return 1
