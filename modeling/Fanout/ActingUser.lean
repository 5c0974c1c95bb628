/-!
# Acting users

A request is made for a user, perhaps by way of proxies. The receiver gets them
as one chain in which each name stands between angle brackets and a bracket
inside a name is escaped.
-/

namespace Fanout

/-- The user a request is made for, and the proxies it came through, the one
closest to the user first. -/
structure ActingUser where
  identity : String
  proxies : List String
  deriving DecidableEq, Repr

namespace ActingUser

def escapeChar (c : Char) : List Char :=
  if c = '<' ∨ c = '>' then ['\\', c] else [c]

/-- A name between brackets. -/
def link (name : String) : List Char :=
  '<' :: name.toList.flatMap escapeChar ++ ['>']

/-- The user and then each proxy. -/
def chain (user : ActingUser) : String :=
  String.ofList ((user.identity :: user.proxies).flatMap link)

end ActingUser

end Fanout
