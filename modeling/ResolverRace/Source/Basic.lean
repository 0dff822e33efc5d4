import ResolverRace.Address.Basic
import ResolverRace.Text.Blank

/-!
# Sources

A pool is made from one source: the built-in list or a list of the user's, named by its id.

* `Source.parse` reads `builtin`, `global` and `custom:<id>`; `Source.text` writes the first and
  the last.
-/

namespace ResolverRace

/-- Why no pool can be made. -/
inductive PoolError where
  | address (cause : AddressError)
  | unknownList (id : String)
  deriving DecidableEq, Repr

namespace PoolError

def message : PoolError → String
  | .address cause => cause.message
  | .unknownList id => s!"unknown resolver list '{id}'"

end PoolError

/-- Which list a pool is made from. -/
inductive Source where
  | builtin
  | custom (id : String)
  deriving DecidableEq, Repr

namespace Source

def text : Source → String
  | .builtin => "builtin"
  | .custom id => "custom:" ++ id

instance : ToString Source := ⟨text⟩

/-- What a custom source starts with. -/
def marker : List Char := "custom:".toList

/-- The words for the built-in list, in any case. No character outside ASCII has one of their
letters as its lower case, so ASCII case is enough. -/
def namesBuiltin (cs : List Char) : Bool :=
  Text.lowerChars cs = "builtin".toList || Text.lowerChars cs = "global".toList

/-- Reads a source from trimmed characters; blanks around the id are dropped, and an id must be
left. -/
def parseTrimmed (cs : List Char) : Except PoolError Source :=
  if namesBuiltin cs then .ok .builtin
  else
    let id := Text.trimChars (cs.drop marker.length)
    if marker.isPrefixOf cs && !id.isEmpty then .ok (.custom (String.ofList id))
    else .error (.unknownList (String.ofList cs))

def parse (s : String) : Except PoolError Source := parseTrimmed (Text.trimChars s.toList)

end Source
end ResolverRace
