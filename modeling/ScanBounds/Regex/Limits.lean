import ScanBounds.Regex.Basic

/-!
# Limits of patterns

A pattern may not nest too deeply, and what it stands for may not grow too large: a repetition counts as
all its copies, so a short pattern can stand for a very large expression.  The size is that of a program
for the expression, which has one instruction for each byte it may read and one for each choice.  For
character sets beyond ASCII it is an estimate.
-/

namespace ScanBounds

/-- Bytes of one instruction. -/
def instructionBytes : Nat := 32

/-- Bytes of a choice between two ways on: an instruction and the two places it can go to. -/
def choiceBytes : Nat := 40

/-- Bytes of the program that reads one character of the set.  The sets that have names are known; a set
beyond ASCII takes as much as the set of all characters. -/
def CharSet.bytes : CharSet → Nat
  | none => instructionBytes
  | range first last =>
    if first = last then first.utf8Size * instructionBytes
    else if last.toNat < 0x80 then 2 * instructionBytes
    else 964
  | digit => 5124
  | space => 680
  | word => 49969
  | negated digit => 12751
  | negated space => 1925
  | negated word => 46537
  | union s t => s.bytes + t.bytes
  | negated s => 964 + s.bytes
  | anyCase s => 2 * s.bytes

namespace Regex

/-- Whether the expression can cover only empty stretches. -/
def takesNothing : Regex → Bool
  | .empty | .assert _ => true
  | .one _ => false
  | .cat r s | .alt r s => r.takesNothing && s.takesNothing
  | .repeated r _ most => r.takesNothing || most == some 0

/-- An expression read from a pattern, how deeply the pattern nests there, and the bytes of its program. -/
structure Part where
  regex : Regex
  depth : Nat
  bytes : Nat

/-- Parts nest one deeper together than alone. -/
def joinedDepth : List Part → Nat
  | [] => 0
  | [p] => p.depth
  | parts => 1 + (parts.map Part.depth).foldl max 0

def totalBytes (parts : List Part) : Nat := parts.foldr (fun p n => p.bytes + n) 0

/-- A character of a set, or an assertion. -/
def Part.item (r : Regex) (depth : Nat) : Part :=
  let bytes := match r with
    | .one s => s.bytes
    | _ => instructionBytes
  ⟨r, depth, bytes⟩

/-- The parts one after the other; the last one is given first. -/
def Part.sequence (items : List Part) : Part :=
  ⟨items.foldl (fun r item => .cat item.regex r) .empty, joinedDepth items,
    if items.isEmpty then instructionBytes else totalBytes items⟩

/-- The last alternative, and those before it, of which the last one is given first. -/
def Part.alternatives (final : Part) (others : List Part) : Part :=
  let choices := if others.isEmpty then 0 else 2 * instructionBytes + 4 * (others.length + 1)
  ⟨others.foldl (fun r other => .alt other.regex r) final.regex, joinedDepth (final :: others),
    totalBytes (final :: others) + choices⟩

/-- A group takes two more instructions when it notes where it begins and ends. -/
def Part.group (captures : Bool) (p : Part) : Part :=
  ⟨p.regex, p.depth + 1, p.bytes + if captures then 2 * instructionBytes else 0⟩

/-- Copies of a part, of which those beyond the least number may be left out.  A part that takes nothing is
not copied. -/
def Part.repeated (p : Part) (least : Nat) (most : Option Nat) : Part :=
  let (least', most') :=
    if p.regex.takesNothing then (min least 1, some (min (most.getD 1) 1)) else (least, most)
  let bytes := match most' with
    | none => max least' 1 * p.bytes + choiceBytes
    | some 0 => instructionBytes
    | some most' =>
      most' * p.bytes + (if least' = most' then 0 else (most' - least') * choiceBytes + instructionBytes)
  ⟨.repeated p.regex least most, p.depth + 1, bytes⟩

/-- Whether the pattern keeps to both limits: 250 levels, and ten mebibytes along with the few instructions
that begin and end every program. -/
def Part.isWithinLimits (p : Part) : Bool :=
  p.depth ≤ 250 && p.bytes + 168 ≤ 10 * Nat.pow 2 20

end Regex

end ScanBounds
