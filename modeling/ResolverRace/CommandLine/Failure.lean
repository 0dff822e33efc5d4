import ResolverRace.Error

/-!
# Failures of a run

A run that fails tells what it was doing and, level by level, why that did not work.
-/

namespace ResolverRace
namespace CommandLine

structure Failure where
  message : String
  /-- The cause of the failure, then the cause of that, and so on. -/
  causes : List String
  deriving DecidableEq, Repr

namespace Failure

/-- A failure without a cause below it. -/
def plain (message : String) : Failure := ⟨message, []⟩

/-- The failure of what `doing` describes. -/
def ofError (doing : String) (e : Error) : Failure := ⟨doing, e.message :: e.cause?.toList⟩

/-- A cause, its lines after the first one indented by `indent`. -/
def causeText (heading indent : List Char) (cause : String) : List Char :=
  '\n' :: heading ++ cause.toList.flatMap fun c => if c = '\n' then c :: indent else [c]

def blanks (n : Nat) : List Char := List.replicate n ' '

/-- The number of a cause, flush right in five columns. -/
def numberText (n : Nat) : List Char :=
  let digits := (toString n).toList
  blanks (5 - digits.length) ++ digits ++ ": ".toList

/-- Causes, numbered if there are several. -/
def causesText : List String → List Char
  | [] => []
  | [cause] => "\n\nCaused by:".toList ++ causeText (blanks 4) (blanks 4) cause
  | causes =>
    "\n\nCaused by:".toList ++
      causes.zipIdx.flatMap fun (cause, n) => causeText (numberText n) (blanks 7) cause

/-- The failure as it is reported. -/
def text (f : Failure) : String :=
  "Error: " ++ f.message ++ String.ofList (causesText f.causes) ++ "\n"

end Failure
end CommandLine
end ResolverRace
