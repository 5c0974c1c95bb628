import Fanout.Logging.Level
import Fanout.Text.Blank
import Fanout.Text.Cut

/-!
# Filters

A filter decides which notices are written. It is a list of directives, each of
which speaks of the notices from some target, and perhaps only of those that
carry certain fields. Of all directives that speak of a notice the most specific
one decides: the one with the longest target, then the one with the most fields.
A notice that no directive speaks of is not written.

Directives are read from a text with commas. A text with a directive that cannot
be read is no filter at all, so that a slip in it does not silence the program:
whoever asked for the filter keeps the one they had.
-/

namespace Fanout

/-- A rule for the notices from some target. -/
structure Directive where
  /-- What the target of a notice begins with. -/
  target : String := ""
  /-- The fields that a notice must carry. -/
  fields : List String := []
  threshold : Threshold
  deriving DecidableEq, Repr

/-- Where a notice comes from, and what it carries. -/
structure Origin where
  target : String
  fields : List String := ["message"]
  deriving DecidableEq, Repr

namespace Threshold

/-- The names of thresholds; none at all stands for errors only. -/
def names : List (String × Threshold) :=
  [("", some .error), ("off", none)] ++ Level.all.map fun l => (l.name, some l)

/-- The threshold of a rank. -/
def ofRank? (n : Nat) : Option Threshold :=
  (none :: Level.all.map some).find? fun t => t.rank == n

/-- A threshold from its rank, or from its name in any case. -/
def ofText? (text : String) : Option Threshold :=
  ((readNat? mostNatural text.toList).bind ofRank?) <|>
    (names.find? fun e => Text.sameIgnoringCase e.1 text).map (·.2)

end Threshold

namespace Directive

/-- Whether a directive speaks of the notices of an origin. -/
def concerns (origin : Origin) (d : Directive) : Bool :=
  d.target.toList.isPrefixOf origin.target.toList &&
    d.fields.all origin.fields.contains

/-- Whether a directive gives way to another one that speaks of the same
notice. Of two that are alike but for the names of their fields, the greater
names decide. -/
def yields (d other : Directive) : Bool :=
  d.target.utf8ByteSize < other.target.utf8ByteSize ||
    (d.target.utf8ByteSize == other.target.utf8ByteSize &&
      (d.fields.length < other.fields.length ||
        (d.fields.length == other.fields.length &&
          !List.lex other.fields d.fields (· < ·))))

/-! ## Reading directives -/

/-- Whether a directive can begin with this character. -/
def isFirst (c : Char) : Bool :=
  c.isAlphanum || ['-', ':', '_', '['].contains c || 0x80 ≤ c.toNat

/-- What comes after an equals sign: a threshold, and by itself the sign lets
all notices through. -/
def readThreshold? (cs : List Char) : Option Threshold :=
  if cs.isEmpty then some (some .trace) else Threshold.ofText?
    (String.ofList cs)

/-- A directive of one word, which is a threshold or else a target. -/
def ofWord (word : List Char) : Directive :=
  match Threshold.ofText? (String.ofList word) with
  | some threshold => { threshold }
  | none => { target := String.ofList word, threshold := some .trace }

/-- What follows a bracketed part: nothing, or an equals sign and a
threshold. -/
def readEnd? : List Char → Option Threshold
  | [] => some (some .trace)
  | '=' :: rest => readThreshold? rest
  | _ => none

/-- The bracketed part of a directive, after its bracket. It speaks of work that
notices are part of; only what it says of fields alone holds for notices as
such, and a directive that says more has no say about them. -/
def readBracket? (target : String) (cs : List Char) :
    Option (List Directive) := do
  let (name, rest) := cs.span fun c => c ≠ ']' && c ≠ '\x7b'
  match rest with
  | ']' :: rest => (readEnd? rest).map fun _ => []
  | '\x7b' :: rest =>
    let (field, rest) := rest.span (· ≠ '\x7d')
    match rest with
    | '\x7d' :: ']' :: rest =>
      let threshold ← readEnd? rest
      if field.isEmpty then none
      else if !name.isEmpty || field.contains '=' then some []
      else some [{ target, fields := [String.ofList field], threshold }]
    | _ => none
  | _ => none

/-- Reads one directive. Blanks around it count where a word or a threshold is
read, so a word in blanks is a target that no notice has, and a threshold in
blanks is none. -/
def ofChars? (cs : List Char) : Option (List Directive) :=
  let inner := Text.trimChars cs
  if !inner.head?.any isFirst then none
  else
    let indented := cs.head? != inner.head?
    let (word, rest) := inner.span fun c => c ≠ '=' && c ≠ '['
    match rest with
    | [] => some [ofWord cs]
    | '=' :: _ =>
      let threshold := cs.drop (word.length + 1)
      if indented then none
      else
        (readThreshold? threshold).map fun threshold =>
          [{ target := String.ofList word, threshold }]
    | _ :: rest =>
      let blanks := cs.drop inner.length
      if rest.contains '=' && !blanks.isEmpty &&
          rest.getLast? ≠ some ']' then
        none
      else
        (readBracket? (String.ofList word) rest).map fun found =>
          if indented then [] else found

end Directive

/-- A list of directives. -/
abbrev Filter := List Directive

namespace Filter

/-- The filter that lets a level and everything graver through. -/
def ofLevel (level : Level) : Filter :=
  [{ threshold := some level }]

/-- Reads a filter. -/
def ofText? (text : String) : Option Filter :=
  let pieces := (Text.pieces ',' text.toList).filter fun cs => !cs.isEmpty
  (pieces.mapM Directive.ofChars?).map List.flatten

/-- The directive that decides about the notices of an origin: the last of the
most specific ones. -/
def deciding? (origin : Origin) (filter : Filter) : Option Directive :=
  (filter.filter (Directive.concerns origin)).foldl (fun best d =>
    match best with
    | some b => if b.yields d then some d else some b
    | none => some d) none

/-- Whether a notice of an origin and a level is written. -/
def admits (origin : Origin) (level : Level) (filter : Filter) : Bool :=
  match filter.deciding? origin with
  | some d => d.threshold.admits level
  | none => false

end Filter

end Fanout
