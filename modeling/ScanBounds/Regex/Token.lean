import ScanBounds.Regex.Basic

/-!
# Tokens of patterns

A pattern is cut into tokens: characters, sets and assertions, bars, brackets of groups, and repetition
marks.  Of the notations between square brackets, ranges, escapes and negation are read.  In extended
patterns white space and comments separate tokens and mean nothing, also inside brackets and braces.
-/

namespace ScanBounds.Regex

/-- The options under which a pattern is read. -/
structure Options where
  ignoreCase : Bool
  multiline : Bool
  dotAll : Bool
  extended : Bool

/-- Letters without a meaning are passed over. -/
def Options.ofFlags (flags : String) : Options :=
  let has c := flags.toList.contains c
  ⟨has 'i', has 'm', has 's', has 'x'⟩

inductive Token where
  /-- One character of a set or an assertion, and how deeply its notation nests. -/
  | item (r : Regex) (depth : Nat)
  | bar
  /-- A group may note what it covers. -/
  | openGroup (captures : Bool)
  | closeGroup
  | repeated (least : Nat) (most : Option Nat)

/-! ## Blanks -/

/-- Skips white space and comments of an extended pattern; `comment` tells that one has begun. -/
def skipBlank (comment : Bool) : List Char → List Char
  | [] => []
  | c :: rest =>
    if comment then skipBlank (c != '\n') rest
    else if Text.isSpace c then skipBlank false rest
    else if c = '#' then skipBlank true rest
    else c :: rest

/-- Skips what only separates. -/
def Options.skip (options : Options) (chars : List Char) : List Char :=
  if options.extended then skipBlank false chars else chars

/-! ## Escapes -/

/-- What a backslash and a character denote: a literal, a set or an assertion. -/
inductive Escape where
  | literal (c : Char)
  | set (s : CharSet)
  | assertion (a : Assertion)

/-- A letter behind a backslash must have a meaning; any other ASCII character but a digit stands for
itself. -/
def escape? : Char → Option Escape
  | 'd' => some (.set .digit)
  | 'D' => some (.set (.negated .digit))
  | 's' => some (.set .space)
  | 'S' => some (.set (.negated .space))
  | 'w' => some (.set .word)
  | 'W' => some (.set (.negated .word))
  | 'n' => some (.literal '\n')
  | 't' => some (.literal '\t')
  | 'r' => some (.literal '\r')
  | 'a' => some (.literal '\x07')
  | 'f' => some (.literal '\x0c')
  | 'v' => some (.literal '\x0b')
  | 'A' => some (.assertion .textStart)
  | 'z' => some (.assertion .textEnd)
  | 'b' => some (.assertion .wordEdge)
  | 'B' => some (.assertion .noWordEdge)
  | '<' => some (.assertion .wordStart)
  | '>' => some (.assertion .wordEnd)
  | c => if c.toNat < 0x80 && !c.isAlphanum then some (.literal c) else none

def literalSet (options : Options) (c : Char) : CharSet :=
  if options.ignoreCase then .anyCase (.single c) else .single c

/-! ## Classes -/

/-- One class element at the head of the text. -/
inductive Element where
  | literal (c : Char)
  | set (s : CharSet)

def Element.charSet : Element → CharSet
  | literal c => .single c
  | set s => s

def element? : List Char → Option (Element × List Char)
  | [] => none
  | '\\' :: c :: rest =>
    match escape? c with
    | some (.literal c) => some (.literal c, rest)
    | some (.set s) => some (.set s, rest)
    | _ => none
  | '\\' :: [] => none
  | c :: rest => some (.literal c, rest)

/-- The character behind a hyphen, which decides whether the hyphen makes a range.  In an extended pattern
blanks and the mark of a comment are looked through, but not the words of the comment. -/
def behindHyphen? (options : Options) (chars : List Char) : Option Char :=
  if options.extended then
    match chars.dropWhile Text.isSpace with
    | '#' :: rest => (rest.dropWhile Text.isSpace).head?
    | rest => rest.head?
  else chars.head?

/-- Reads one element, or two that a hyphen joins to a range. -/
def rangeOrElement? (options : Options) (chars : List Char) : Option (CharSet × List Char) := do
  let (first, rest) ← element? chars
  match options.skip rest with
  | '-' :: after =>
    if behindHyphen? options after == some ']' || behindHyphen? options after == some '-' then
      return (first.charSet, rest)
    else
      let (last, rest) ← element? (options.skip after)
      match first, last with
      | .literal a, .literal b => if a ≤ b then return (.range a b, rest) else none
      | _, _ => none
  | _ => return (first.charSet, rest)

/-- Reads the elements of a class up to its bracket.  Nested classes and set operators are refused. -/
def elements? (options : Options) : Nat → List Char → Option (List CharSet × List Char)
  | 0, _ => none
  | fuel + 1, chars =>
    match options.skip chars with
    | [] => none
    | ']' :: rest => some ([], rest)
    | '[' :: _ => none
    | '&' :: '&' :: _ => none
    | '-' :: '-' :: _ => none
    | '~' :: '~' :: _ => none
    | chars => do
      let (set, rest) ← rangeOrElement? options chars
      let (sets, rest) ← elements? options fuel rest
      return (set :: sets, rest)

/-- Hyphens at the start of a class are literal.  Gives their sets and what is behind them and blanks. -/
def leadingHyphens (options : Options) : Nat → List Char → List CharSet × List Char
  | 0, chars => ([], chars)
  | fuel + 1, chars =>
    match options.skip chars with
    | '-' :: rest =>
      let (sets, rest) := leadingHyphens options fuel rest
      (.single '-' :: sets, rest)
    | rest => ([], rest)

/-- Reads a class after its opening bracket, with the depth of its notation.  A closing bracket that would
leave the class empty is literal. -/
def class? (options : Options) (chars : List Char) : Option (CharSet × Nat × List Char) := do
  let (inverted, chars) := match options.skip chars with
    | '^' :: rest => (true, rest)
    | chars => (false, chars)
  let (hyphens, chars) := leadingHyphens options (chars.length + 1) chars
  let (first, chars) := match hyphens, chars with
    | [], ']' :: rest => ([CharSet.single ']'], rest)
    | hyphens, chars => (hyphens, chars)
  let (others, chars) ← elements? options (chars.length + 1) chars
  let sets := first ++ others
  let set := sets.foldr CharSet.union .none
  let set := if options.ignoreCase then .anyCase set else set
  return (if inverted then .negated set else set, if sets.length = 1 then 1 else 2, chars)

/-! ## Repetition counts -/

/-- The digits at the head of the text.  In an extended pattern blanks and comments may stand behind each
digit; `comment` tells that one has begun. -/
def digits (extended comment : Bool) : List Char → List Char × List Char
  | [] => ([], [])
  | c :: rest =>
    if comment then digits extended (c != '\n') rest
    else if c.isDigit then
      let (more, after) := digits extended false rest
      (c :: more, after)
    else if extended && Text.isSpace c then digits extended false rest
    else if extended && c = '#' then digits extended true rest
    else ([], c :: rest)

/-- A decimal number of thirty-two bits with blanks around it. -/
def count? (options : Options) (chars : List Char) : Option (Nat × List Char) :=
  let (digits, rest) := digits options.extended false (chars.dropWhile Text.isSpace)
  let n := digits.foldl (fun n c => 10 * n + (c.toNat - '0'.toNat)) 0
  if digits.isEmpty || Nat.pow 2 32 ≤ n then none else some (n, rest.dropWhile Text.isSpace)

/-- Reads a counted repetition after its brace. -/
def counted? (options : Options) (chars : List Char) : Option (Nat × Option Nat × List Char) := do
  let (least, chars) ← count? options (options.skip chars)
  match chars with
  | '}' :: rest => return (least, some least, rest)
  | ',' :: rest =>
    match options.skip rest with
    | '}' :: rest => return (least, none, rest)
    | rest =>
      let (most, rest) ← count? options rest
      match rest with
      | '}' :: rest => if least ≤ most then return (least, some most, rest) else none
      | _ => none
  | _ => none

/-- A question mark after a repetition makes it reluctant. -/
def dropReluctant : List Char → List Char
  | '?' :: rest => rest
  | rest => rest

/-! ## Tokens -/

/-- Reads the token that starts with `c` and gives the rest; `none` in place of a token for what only
separates. -/
def token? (options : Options) (c : Char) (rest : List Char) :
    Option (Option Token × List Char) :=
  let item (r : Regex) (rest : List Char) := some (some (Token.item r 0), rest)
  let repeats (least : Nat) (most : Option Nat) (rest : List Char) :=
    some (some (Token.repeated least most), dropReluctant rest)
  if options.extended && (Text.isSpace c || c = '#') then
    some (none, skipBlank (c = '#') rest)
  else
    match c with
    | '|' => some (some .bar, rest)
    | '(' =>
      match options.skip rest with
      | '?' :: ':' :: rest => some (some (.openGroup false), rest)
      | '?' :: _ => none
      | rest => some (some (.openGroup true), rest)
    | ')' => some (some .closeGroup, rest)
    | '*' => repeats 0 none rest
    | '+' => repeats 1 none rest
    | '?' => repeats 0 (some 1) rest
    | '{' => do
      let (least, most, rest) ← counted? options rest
      -- behind a brace, unlike behind the other marks, blanks may precede the question mark
      repeats least most (options.skip rest)
    | '[' => do
      let (set, depth, rest) ← class? options rest
      return (some (.item (.one set) depth), rest)
    | '.' => item (.one (if options.dotAll then .any else .negated (.single '\n'))) rest
    | '^' => item (.assert (if options.multiline then .lineStart else .textStart)) rest
    | '$' => item (.assert (if options.multiline then .lineEnd else .textEnd)) rest
    | '\\' =>
      match rest with
      | [] => none
      | e :: rest => do
        match ← escape? e with
        | .literal c => item (.one (literalSet options c)) rest
        | .set s => item (.one s) rest
        | .assertion a => item (.assert a) rest
    | c => item (.one (literalSet options c)) rest

/-- Cuts a pattern into tokens.  Every token takes at least one character, so as many tokens as there are
characters are enough. -/
def tokens? (options : Options) : Nat → List Char → Option (List Token)
  | _, [] => some []
  | 0, _ :: _ => none
  | fuel + 1, c :: rest => do
    let (token, rest) ← token? options c rest
    let tokens ← tokens? options fuel rest
    return token.toList ++ tokens

end ScanBounds.Regex
