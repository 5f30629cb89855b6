import ScanBounds.Compound.SingleRange
import ScanBounds.Json.Tree
import ScanBounds.Predicate.KeyMatch
import ScanBounds.Recipe.Basic
import ScanBounds.Value.OfJson
import ScanBounds.Proofs.Value.Order
import ScanBounds.Proofs.Value.Bracket
import ScanBounds.Proofs.Value.Collation
import ScanBounds.Proofs.Interval.Cut
import ScanBounds.Proofs.Interval.Canonical
import ScanBounds.Proofs.Interval.SetOps
import ScanBounds.Proofs.Interval.Laws
import ScanBounds.Proofs.Interval.Position
import ScanBounds.Proofs.Interval.Void
import ScanBounds.Proofs.Interval.Disorder
import ScanBounds.Proofs.Regex.Range
import ScanBounds.Proofs.Regex.Matching
import ScanBounds.Proofs.Regex.Tokens
import ScanBounds.Proofs.Regex.Bars
import ScanBounds.Proofs.Regex.Sequence
import ScanBounds.Proofs.Regex.Beginning
import ScanBounds.Proofs.Regex.Walk
import ScanBounds.Proofs.Predicate.Accepts
import ScanBounds.Proofs.Bounding.Operand
import ScanBounds.Proofs.Bounding.Canonical
import ScanBounds.Proofs.Bounding.Covered
import ScanBounds.Proofs.Bounding.Held
import ScanBounds.Proofs.Bounding.TypeTest
import ScanBounds.Proofs.Bounding.Negation
import ScanBounds.Proofs.Bounding.Matches
import ScanBounds.Proofs.Recipe.Postfix
import ScanBounds.Proofs.Recipe.Replay
import ScanBounds.Proofs.Recipe.Adjusted
import ScanBounds.Proofs.Value.Number
import ScanBounds.Proofs.Bounding.Comparison
import ScanBounds.Proofs.Value.Meaning
import ScanBounds.Proofs.Value.Nested
import ScanBounds.Proofs.Bounding.ArrayOperand
import ScanBounds.Proofs.Compound.ScanOrder
import ScanBounds.Proofs.Compound.SingleRange
import ScanBounds.Proofs.Value.Layout
import ScanBounds.Proofs.Bounding.Exact
import ScanBounds.Proofs.Bounding.Siblings
import ScanBounds.Proofs.Bounding.Membership
import ScanBounds.Proofs.Bounding.Collated
import ScanBounds.Proofs.Index.MultikeyPath
import ScanBounds.Proofs.Bounding.Wildcard
import ScanBounds.Proofs.Compound.Alignment
