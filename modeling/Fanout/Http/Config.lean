import Fanout.Time

/-!
# Configuration of the HTTP client
-/

namespace Fanout

/-- How nodes are reached over HTTP. -/
structure ClientConfig where
  connectTimeout : Span := Span.ofSeconds 5
  requestTimeout : Span := Span.ofSeconds 30
  scheme : String := "http"
  deriving DecidableEq, Repr

end Fanout
