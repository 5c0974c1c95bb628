/-!
# Ascending lists

Node sets, header maps and the members of an entity are all held in one order
that every answer shows. Here they are plain lists in strictly ascending order.
Insertion keeps the order and replaces an equal element, so the last value
given under a key is the one that stays.
-/

namespace Fanout

variable {α β : Type}

/-- Inserts an element unless an equal one is held. -/
def insertAscending [Ord α] (a : α) : List α → List α
  | [] => [a]
  | b :: rest =>
    match compare a b with
    | .lt => a :: b :: rest
    | .eq => a :: rest
    | .gt => b :: insertAscending a rest

/-- The elements of a list in ascending order, each once. -/
def ascending [Ord α] (elements : List α) : List α :=
  elements.foldl (fun held a => insertAscending a held) []

/-- Sets the value under a key. -/
def putAscending [Ord α] (key : α) (value : β) : List (α × β) → List (α × β)
  | [] => [(key, value)]
  | entry :: rest =>
    match compare key entry.1 with
    | .lt => (key, value) :: entry :: rest
    | .eq => (key, value) :: rest
    | .gt => entry :: putAscending key value rest

/-- Entries in ascending order of their keys, the last one of each key. -/
def ascendingBy [Ord α] (entries : List (α × β)) : List (α × β) :=
  entries.foldl (fun held e => putAscending e.1 e.2 held) []

/-- The value under a key. -/
def valueAt? [BEq α] (key : α) : List (α × β) → Option β
  | [] => none
  | entry :: rest => if entry.1 == key then some entry.2 else valueAt? key rest

/-- The entries under other keys. -/
def withoutKey [BEq α] (key : α) (entries : List (α × β)) : List (α × β) :=
  entries.filter fun e => !(e.1 == key)

end Fanout
