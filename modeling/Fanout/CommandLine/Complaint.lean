import Fanout.Fault

/-!
# Complaints

What the program says when it gives up. Some complaints stand for themselves,
some only say what was being done when a fault came up, and a fault that came up
while nothing in particular was being done speaks for itself.
-/

namespace Fanout

/-- Why the program gives up. -/
inductive Complaint where
  | noNodes
  | settings
  | nodeList (cause : Fault)
  | coordinator (text : String) (cause : Fault)
  | unknownTarget (id : String)
  | method (text : String)
  | entity
  | fault (cause : Fault)
  | logDirectory (path : String)
  | logging
  | unavailable (request : String)
  | unsuccessful (request : String)
  deriving DecidableEq, Repr

namespace Complaint

/-- The wording of a complaint. -/
def message : Complaint → String
  | noNodes => "no cluster nodes given; use --node, --config or --forward-to"
  | settings => "failed to load configuration"
  | nodeList _ => "invalid cluster node list"
  | coordinator text _ => "invalid coordinator " ++ text
  | unknownTarget id => "target " ++ id ++ " is not a configured cluster node"
  | method text => "invalid method " ++ text
  | entity => "request entity is not valid JSON"
  | fault cause => cause.message
  | logDirectory path => "failed to create log directory " ++ path
  | logging => "failed to initialize logging"
  | unavailable request => "cluster response " ++ request ++
      " is no longer available"
  | unsuccessful request => "request " ++ request ++
      " did not succeed on every node"

/-- The fault behind a complaint. -/
def cause? : Complaint → Option Fault
  | nodeList cause => some cause
  | coordinator _ cause => some cause
  | fault cause => some cause
  | _ => none

/-- What is printed for a complaint: the wording, and the fault behind it unless
the wording is the fault's own. -/
def text (c : Complaint) : String :=
  let behind :=
    match c, c.cause? with
    | fault _, _ | _, none => ""
    | _, some cause => "\n\nCaused by:\n    " ++ cause.message
  "Error: " ++ c.message ++ behind ++ "\n"

end Complaint

end Fanout
