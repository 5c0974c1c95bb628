/-!
# Request methods

A method is any token; its case matters. Three methods change nothing at the
receiver, and these three with `DELETE` carry their entity in the query of the
target instead of a body.
-/

namespace Fanout

/-- Whether a character may stand in a token. -/
def isTokenChar (c : Char) : Bool :=
  c.isAlphanum || "!#$%&'*+-.^_\x60|~".toList.contains c

/-- A request method. -/
structure Method where
  name : String
  deriving DecidableEq, Repr, Inhabited

namespace Method

def get : Method := ⟨"GET"⟩
def head : Method := ⟨"HEAD"⟩
def options : Method := ⟨"OPTIONS"⟩
def delete : Method := ⟨"DELETE"⟩
def put : Method := ⟨"PUT"⟩
def post : Method := ⟨"POST"⟩
def connect : Method := ⟨"CONNECT"⟩

/-- The method of a name, which must be a token. -/
def ofText? (text : String) : Option Method :=
  if !text.isEmpty && text.toList.all isTokenChar then some ⟨text⟩ else none

/-- Whether a request of this method changes nothing at the receiver. -/
def isReadOnly (m : Method) : Bool :=
  m == get || m == head || m == options

/-- Whether an entity travels in the query. -/
def usesQuery (m : Method) : Bool :=
  m.isReadOnly || m == delete

theorem usesQuery_iff (m : Method) :
    m.usesQuery = true ↔ m ∈ [get, head, options, delete] := by
  simp [usesQuery, isReadOnly, or_assoc]

/-- Whether a request of this method asks for a tunnel to a host. -/
def opensTunnel (m : Method) : Bool :=
  m == connect

end Method

end Fanout
