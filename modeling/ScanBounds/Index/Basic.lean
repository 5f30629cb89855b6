import ScanBounds.Json.Basic
import ScanBounds.Text.Offset
import ScanBounds.Value.Collation
import ScanBounds.Value.Writer

/-!
# Indexes

What has to be known of an index to build bounds for it: its key pattern, its kind, whether arrays have
given documents several keys and on which paths, and its collation.
-/

namespace ScanBounds

/-- How a field of a key pattern is indexed. -/
inductive KeyOption where
  | ascending
  | descending
  | hashed
  /-- Cells of the plane. -/
  | planar
  /-- Cells of the sphere. -/
  | spherical
  /-- Cells of the sphere, over buckets of measurements. -/
  | sphericalBucket
  | text
deriving DecidableEq, Repr

namespace KeyOption

/-- The direction in which a forward scan walks; all but descending fields are walked upwards. -/
def direction : KeyOption → Int
  | descending => -1
  | _ => 1

def isHashed (option : KeyOption) : Bool := option = hashed

/-- A number says the direction by its sign, zeros being positive; a word names one of the special
options. -/
def ofJson? : Json → Option KeyOption
  | .int n => some (if 0 ≤ n then ascending else descending)
  | .double d => some (if 0 ≤ d.scaled then ascending else descending)
  | .string "hashed" => some hashed
  | .string "2d" => some planar
  | .string "2dsphere" => some spherical
  | .string "2dsphere_bucket" => some sphericalBucket
  | .string "text" => some text
  | _ => none

def label : KeyOption → String
  | ascending => "1"
  | descending => "-1"
  | hashed => "\"hashed\""
  | planar => "\"2d\""
  | spherical => "\"2dsphere\""
  | sphericalBucket => "\"2dsphere_bucket\""
  | text => "\"text\""

end KeyOption

structure IndexedField where
  name : String
  option : KeyOption
deriving DecidableEq, Repr

structure KeyPattern where
  fields : List IndexedField
deriving DecidableEq, Repr

namespace KeyPattern

def size (pattern : KeyPattern) : Nat := pattern.fields.length

def get? (pattern : KeyPattern) (name : String) : Option IndexedField :=
  pattern.fields.find? (·.name == name)

def ofPairs? (pairs : List (String × Json)) : Option KeyPattern := do
  let fields ← pairs.mapM fun (name, json) => do return ⟨name, ← KeyOption.ofJson? json⟩
  return ⟨fields⟩

def text (pattern : KeyPattern) : String :=
  Text.braced (pattern.fields.map fun field => field.name ++ ": " ++ field.option.label)

end KeyPattern

inductive IndexKind where
  | btree
  | hashed
  /-- Holds keys for the leaves under a path, and none for objects and arrays. -/
  | wildcard
  | planar
  | spherical
  | sphericalBucket
  | text
deriving DecidableEq, Repr

namespace IndexKind

def name : IndexKind → String
  | btree => "btree"
  | hashed => "hashed"
  | wildcard => "wildcard"
  | planar => "2d"
  | spherical => "2dsphere"
  | sphericalBucket => "2dsphere_bucket"
  | text => "text"

def ofOption? : KeyOption → Option IndexKind
  | .hashed => some hashed
  | .planar => some planar
  | .spherical => some spherical
  | .sphericalBucket => some sphericalBucket
  | .text => some text
  | .ascending | .descending => none

/-- The kind that a key pattern implies: that of its first special field, or else wildcard if a name ends
in `$**`. -/
def ofPattern (pattern : KeyPattern) : IndexKind :=
  match pattern.fields.findSome? fun field => ofOption? field.option with
  | some kind => kind
  | none => if pattern.fields.any (·.name.endsWith "$**") then wildcard else btree

end IndexKind

structure Index where
  name : String
  pattern : KeyPattern
  kind : IndexKind
  /-- Some document has more than one key. -/
  multikey : Bool
  /-- The paths known to lead to or through an array, in order, if they are tracked. -/
  multikeyPaths : Option (List String)
  /-- Documents without the indexed field are left out. -/
  sparse : Bool
  collator : Option Collator

namespace Index

def ofPattern (name : String) (pattern : KeyPattern) : Index :=
  ⟨name, pattern, .ofPattern pattern, false, none, false, none⟩

/-- Adds a path to an ordered list of paths that holds each once. -/
def insertPath (path : String) : List String → List String
  | [] => [path]
  | other :: rest =>
    if path < other then path :: other :: rest
    else if path = other then other :: rest
    else other :: insertPath path rest

/-- Tracks array paths; one such path makes the index multikey. -/
def withMultikeyPaths (index : Index) (paths : List String) : Index :=
  { index with
    multikey := index.multikey || !paths.isEmpty
    multikeyPaths := some (paths.foldl (fun held path => insertPath path held) []) }

/-- Whether the path, or a beginning of it that stops before a dot, is flagged.  The walk goes from dot to
dot and stands at byte offset `start`; if it came to stand within a character, there would be no answer. -/
@[semireducible]
def anyLeading? (flagged : String → Bool) (path : List Char) (start : Nat) : Option Bool :=
  -- Left semireducible so that the walk over a fixed path can be run by `decide`.
  match hcut : Text.cut? start path with
  | none => none
  | some (_, behind) =>
    match hdot : Text.offsetOf? '.' behind with
    | none => some (flagged (String.ofList path))
    | some n =>
      have : start + n < Text.byteSize path := Text.cut_add_offset_lt hcut hdot
      match Text.cut? (start + n) path with
      | none => none
      | some (leading, _) =>
        if flagged (String.ofList leading) then some true else anyLeading? flagged path (start + n + 1)
termination_by Text.byteSize path - start

/-- Whether a document may hold several keys for the path.  Where array paths are not tracked, this is
known of the whole index only. -/
def isMultikeyPath (index : Index) (path : String) : Bool :=
  match index.multikeyPaths with
  | none => index.multikey
  | some paths => anyLeading? paths.contains path.toList 0 == some true

end Index

end ScanBounds
