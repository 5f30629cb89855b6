import ScanBounds.Regex.Limits
import ScanBounds.Regex.Token

/-!
# Reading patterns

A stack machine builds the expression from the tokens of a pattern.  A pattern that cannot be cut into
tokens, whose groups and repetitions do not fit, or that exceeds the limits, denotes no expression.
-/

namespace ScanBounds.Regex

/-- What has been read of one group: the sequence in progress, last item first, and the alternatives
before it, last one first. -/
structure Level where
  /-- Whether the group notes what it covers. -/
  captures : Bool
  items : List Part
  alternatives : List Part

def Level.push (level : Level) (p : Part) : Level := { level with items := p :: level.items }

/-- All that the level has read. -/
def Level.close (level : Level) : Part :=
  Part.alternatives (Part.sequence level.items) level.alternatives

/-- The groups that are open, innermost first; the last is the whole pattern. -/
structure Machine where
  level : Level
  outer : List Level

def Machine.start : Machine := ⟨⟨false, [], []⟩, []⟩

def Machine.step? (m : Machine) : Token → Option Machine
  | .item r depth => some { m with level := m.level.push (Part.item r depth) }
  | .bar =>
    let sequence := Part.sequence m.level.items
    some { m with level := ⟨m.level.captures, [], sequence :: m.level.alternatives⟩ }
  | .openGroup captures => some ⟨⟨captures, [], []⟩, m.level :: m.outer⟩
  | .closeGroup =>
    match m.outer with
    | [] => none
    | level :: outer => some ⟨level.push (m.level.close.group m.level.captures), outer⟩
  | .repeated least most =>
    match m.level.items with
    | [] => none
    | p :: items =>
      some { m with level := { m.level with items := p.repeated least most :: items } }

def ofTokens? (tokens : List Token) : Option Regex := do
  let m ← tokens.foldlM Machine.step? Machine.start
  if m.outer.isEmpty && m.level.close.isWithinLimits then some m.level.close.regex else none

/-- The expression that a pattern denotes under its flags; `none` if it denotes none. -/
def read? (pattern flags : String) : Option Regex := do
  let options := Options.ofFlags flags
  let chars := pattern.toList
  ofTokens? (← tokens? options chars.length chars)

end ScanBounds.Regex
