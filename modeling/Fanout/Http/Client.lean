import Fanout.Engine.Basic
import Fanout.Http.Carriage
import Fanout.Http.Config
import Fanout.Http.Message
import Fanout.Notice

/-!
# The HTTP client

A call to a node becomes a request in two steps. First its parts are looked at
one by one, and an address that cannot be read is found before a header that
cannot be sent. Then the request as a whole must be one that the client can
make. Nothing has been sent by then, so a fault here never reaches a node.
-/

namespace Fanout.Http

open Text (Bytes)

/-- The address of a call, as it is put together. -/
def urlText (config : ClientConfig) (node : Node) (uri : String) : String :=
  config.scheme ++ "://" ++ node.address ++ uri

/-- What is told when a call is sent. -/
def sendingNotice (config : ClientConfig) (node : Node)
    (o : Outbound) : Notice :=
  .sending o.method (urlText config node o.uri) node o.id

/-! ## Faults -/

/-- A part of the request cannot be used. -/
def partFault : Fault := .nodeClient "builder error"

/-- The request as a whole cannot be made. -/
def requestFault (url : Url) : Fault :=
  .nodeClient ("builder error for url (" ++ url.text ++ ")")

/-- No reply came. -/
def sendingFault (url : Url) : Fault :=
  .nodeClient ("error sending request for url (" ++ url.text ++ ")")

/-- The client was led on too often. -/
def leadingFault (url : Url) : Fault :=
  .nodeClient ("error following redirect for url (" ++ url.text ++ ")")

/-- The reply broke off. -/
def bodyFault (url : Url) : Fault :=
  .nodeClient ("error decoding response body for url (" ++ url.text ++ ")")

/-! ## From a call to a request -/

/-- Whether a header can be sent. -/
def isSendable (header : String × String) : Bool :=
  !header.1.isEmpty && header.1.toList.all isTokenChar &&
    header.2.toList.all fun c =>
      (0x20 ≤ c.toNat && c.toNat != 0x7F) || c == '\t'

/-- Adds a header unless there is one of its name. -/
def withStandard (name value : String) (headers : List (String × String)) :
    List (String × String) :=
  if headers.any fun h => h.1 == name then headers
  else headers ++ [(name, value)]

/-- The headers of a request with a body or without one. -/
def requestHeaders (headers : Headers) (body : Option Bytes) :
    List (String × String) :=
  let named := headers.map fun h => (h.1.map Char.toLower, h.2)
  let named := withStandard "accept" "*/*" named
  match body with
  | none => named
  | some bytes =>
    withStandard "content-type" "application/json" named ++
      [("content-length", toString bytes.length)]

/-- The greatest length of an address that can be asked for. -/
def mostUrlLength : Nat := Nat.pow 2 16 - 2

/-- The request of a call. -/
def request (config : ClientConfig) (node : Node) (o : Outbound) :
    Except Fault HttpRequest :=
  match Url.ofText? (urlText config node o.uri) with
  | none => .error partFault
  | some url =>
    if url.host.isNone then .error (requestFault url)
    else if !o.headers.all isSendable then .error partFault
    else
      let carriage := Carriage.ofEntity o.method o.entity
      let url := url.withForm carriage.formPairs
      if ¬ url.isWeb ∨ mostUrlLength < url.text.utf8ByteSize then
        .error (requestFault url)
      else
        .ok { method := o.method, url, body := carriage.bodyBytes,
              headers := requestHeaders o.headers carriage.bodyBytes }

/-! ## From what came back to a result -/

/-- What a client makes of all that a connection gave in return. -/
def result (r : HttpRequest) (bytes : Bytes) : CallResult :=
  match readReply r.method bytes with
  | .ok reply => .ok reply
  | .error .missing => .error (sendingFault r.url)
  | .error .cutShort => .error (bodyFault r.url)

end Fanout.Http
