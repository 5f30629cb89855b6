import ScanBounds.Json.Lexeme

/-!
# Reading JSON

The grammar is a machine that takes one lexeme at a time and keeps the arrays and objects that are still
open on a stack; reading a text is a fold over its lexemes.  What comes out is a `Tree`, which is
well-formed text and no more.  `Tree.value?` gives it a meaning: numerals become numbers, surrogates are
paired, nesting is bounded, and of members with one name the last is kept.
-/

namespace ScanBounds.Json

inductive Tree where
  | null
  | bool (b : Bool)
  | numeral (n : Numeral)
  | string (pieces : List Piece)
  | array (items : List Tree)
  | object (members : List (List Piece × Tree))
deriving Inhabited

namespace Tree

/-! ## Grammar -/

/-- An array or object that is still open, its finished parts last first. -/
inductive Frame where
  | array (items : List Tree)
  | object (members : List (List Piece × Tree)) (name : List Piece)

/-- What may come next. -/
inductive State where
  | value
  /-- After an opening square bracket. -/
  | valueOrClose
  /-- After an opening brace, with the members before it. -/
  | name (members : List (List Piece × Tree)) (mayClose : Bool)
  | colon (members : List (List Piece × Tree)) (name : List Piece)
  /-- A value is complete. -/
  | complete (tree : Tree)

structure Machine where
  opened : List Frame
  state : State

def start : Machine := ⟨[], .value⟩

/-- A value that is complete by its first lexeme, or the opening of one. -/
def Machine.beginValue? (opened : List Frame) : Lexeme → Option Machine
  | .null => some ⟨opened, .complete .null⟩
  | .bool b => some ⟨opened, .complete (.bool b)⟩
  | .numeral n => some ⟨opened, .complete (.numeral n)⟩
  | .string pieces => some ⟨opened, .complete (.string pieces)⟩
  | .openArray => some ⟨.array [] :: opened, .valueOrClose⟩
  | .openObject => some ⟨opened, .name [] true⟩
  | _ => none

/-- After a complete value: the next item or member of what is open, or its end. -/
def Machine.afterValue? (tree : Tree) : List Frame → Lexeme → Option Machine
  | .array items :: opened, .comma => some ⟨.array (tree :: items) :: opened, .value⟩
  | .array items :: opened, .closeArray => some ⟨opened, .complete (.array (tree :: items).reverse)⟩
  | .object members name :: opened, .comma => some ⟨opened, .name ((name, tree) :: members) false⟩
  | .object members name :: opened, .closeObject =>
    some ⟨opened, .complete (.object ((name, tree) :: members).reverse)⟩
  | _, _ => none

def Machine.step? (machine : Machine) (lexeme : Lexeme) : Option Machine :=
  match machine.state, lexeme with
  | .value, lexeme => beginValue? machine.opened lexeme
  | .valueOrClose, .closeArray => some ⟨machine.opened.drop 1, .complete (.array [])⟩
  | .valueOrClose, lexeme => beginValue? machine.opened lexeme
  | .name members _, .string pieces => some ⟨machine.opened, .colon members pieces⟩
  | .name _ true, .closeObject => some ⟨machine.opened, .complete (.object [])⟩
  | .name _ _, _ => none
  | .colon members name, .colon => some ⟨.object members name :: machine.opened, .value⟩
  | .colon _ _, _ => none
  | .complete tree, lexeme => afterValue? tree machine.opened lexeme

def ofLexemes? (lexemes : List Lexeme) : Option Tree := do
  let machine ← lexemes.foldlM Machine.step? start
  match machine with
  | ⟨[], .complete tree⟩ => some tree
  | _ => none

/-- Reads a text that holds one JSON value and blanks. -/
def read? (text : String) : Option Tree := do
  ofLexemes? (← Lexeme.ofChars? text.toList)

/-! ## Meaning -/

/-- Pairs the surrogates of a string; a surrogate without its partner has no meaning. -/
def decode? : List Piece → Option (List Char)
  | [] => some []
  | .char c :: rest => (decode? rest).map (c :: ·)
  | .unit high :: .unit low :: rest =>
    if 0xD800 ≤ high && high < 0xDC00 then
      if 0xDC00 ≤ low && low < 0xE000 then
        (decode? rest).map (Char.ofNat (0x10000 + (high - 0xD800) * 0x400 + (low - 0xDC00)) :: ·)
      else none
    else if 0xDC00 ≤ high && high < 0xE000 then none
    else (decode? (.unit low :: rest)).map (Char.ofNat high :: ·)
  | .unit n :: rest =>
    if 0xD800 ≤ n && n < 0xE000 then none else (decode? rest).map (Char.ofNat n :: ·)

def text? (pieces : List Piece) : Option String := (decode? pieces).map String.ofList

/-- Puts a member in its place by name, over one of the same name. -/
def insertMember (name : String) (value : Json) : List (String × Json) → List (String × Json)
  | [] => [(name, value)]
  | (other, held) :: rest =>
    if name < other then (name, value) :: (other, held) :: rest
    else if name = other then (name, value) :: rest
    else (other, held) :: insertMember name value rest

mutual

/-- The meaning of a tree whose arrays and objects are nested less than `depth` deep. -/
def valueAt? (depth : Nat) : Tree → Option Json
  | .null => some .null
  | .bool b => some (.bool b)
  | .numeral n => n.value?
  | .string pieces => (text? pieces).map .string
  | .array items => if depth ≤ 1 then none else (itemsAt? (depth - 1) items).map .array
  | .object members => if depth ≤ 1 then none else (membersAt? (depth - 1) members []).map .object

def itemsAt? (depth : Nat) : List Tree → Option (List Json)
  | [] => some []
  | item :: rest => do
    let value ← valueAt? depth item
    let values ← itemsAt? depth rest
    return value :: values

def membersAt? (depth : Nat) :
    List (List Piece × Tree) → List (String × Json) → Option (List (String × Json))
  | [], done => some done
  | (name, tree) :: rest, done => do
    let name ← text? name
    let value ← valueAt? depth tree
    membersAt? depth rest (insertMember name value done)

end

def value? (tree : Tree) : Option Json := tree.valueAt? 128

end Tree

/-- The value that a text stands for. -/
def read? (text : String) : Option Json := do
  (← Tree.read? text).value?

end ScanBounds.Json
