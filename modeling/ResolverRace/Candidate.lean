import ResolverRace.Address.Parser

/-!
# Candidates

A candidate is a resolver address together with the list it was taken from.
-/

namespace ResolverRace

/-- The list a candidate was taken from. -/
inductive Origin where
  | builtin
  | custom (id : String)
  deriving DecidableEq, Repr

namespace Origin

def text : Origin → String
  | .builtin => "builtin"
  | .custom id => "custom:" ++ id

instance : ToString Origin := ⟨text⟩

end Origin

structure Candidate where
  address : Address
  origin : Origin
  deriving DecidableEq

namespace Candidate

instance : ToString Candidate := ⟨fun c => c.address.text⟩

end Candidate
end ResolverRace
