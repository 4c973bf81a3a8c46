import InlineQuery.Main
import InlineQuery.Session
import InlineQuery.Proofs.Description.Children
import InlineQuery.Proofs.Description.Positions
import InlineQuery.Proofs.Description.WellFormed
import InlineQuery.Proofs.Description.Flattening
import InlineQuery.Proofs.Description.Meaning
import InlineQuery.Proofs.Description.Reachable
import InlineQuery.Proofs.Prune.Steps
import InlineQuery.Proofs.Prune.Budget
import InlineQuery.Proofs.Prune.WellFormed
import InlineQuery.Proofs.Prune.Reported
import InlineQuery.Proofs.Prune.Repeated
import InlineQuery.Proofs.Prune.Accounted
import InlineQuery.Proofs.Prune.Unspent
import InlineQuery.Proofs.Prune.Weakening
import InlineQuery.Proofs.Reading.Combination
import InlineQuery.Proofs.Reading.Associativity
import InlineQuery.Proofs.Reading.Meaning
import InlineQuery.Proofs.Reading.Forms
import InlineQuery.Proofs.Reading.Steps
import InlineQuery.Proofs.Reading.Conditions
import InlineQuery.Proofs.Reading.Permitted
import InlineQuery.Proofs.Reading.Diagnostics
import InlineQuery.Proofs.Reading.Restricted
import InlineQuery.Proofs.Writing.Chunks
import InlineQuery.Proofs.Writing.Canonical
import InlineQuery.Proofs.Writing.Atoms
import InlineQuery.Proofs.Writing.Properties
import InlineQuery.Proofs.Writing.Comparators
import InlineQuery.Proofs.Writing.Values
import InlineQuery.Proofs.Writing.Alternatives
import InlineQuery.Proofs.Writing.RoundTrip
import InlineQuery.Proofs.Reading.Cuts
import InlineQuery.Proofs.Reading.Appending
import InlineQuery.Proofs.Reading.Blocks
import InlineQuery.Proofs.Reading.Calls
import InlineQuery.Proofs.Reading.Nesting
import InlineQuery.Proofs.Reading.Termination
import InlineQuery.Proofs.Reading.Delimiters
import InlineQuery.Proofs.Reading.Reports
import InlineQuery.Proofs.Reading.Context
import InlineQuery.Proofs.Reading.Independence
import InlineQuery.Proofs.Reading.Composition
import InlineQuery.Proofs.Reading.Shape
import InlineQuery.Proofs.Reading.Types
import InlineQuery.Proofs.Reading.Comparison
import InlineQuery.Proofs.Reading.Lockstep
import InlineQuery.Proofs.Reading.Refusals
import InlineQuery.Proofs.Reading.Narrowing
import InlineQuery.Proofs.Reading.Conservation
import InlineQuery.Proofs.Reading.Resuming
import InlineQuery.Proofs.Description.Requests
import InlineQuery.Proofs.Titles.UpperCase
import InlineQuery.Proofs.Titles.Normalization
import InlineQuery.Proofs.Titles.PropertyNames
import InlineQuery.Proofs.Titles.Spelling
import InlineQuery.Proofs.Reading.Alongside
import InlineQuery.Proofs.Reading.Gaps
import InlineQuery.Proofs.Reading.Settling
import InlineQuery.Proofs.Reading.Rows
import InlineQuery.Proofs.Reading.Shorthand
import InlineQuery.Proofs.Reading.Namespaces
import InlineQuery.Proofs.Reading.Classification
import InlineQuery.Proofs.Reading.Prefixes
import InlineQuery.Proofs.Reading.Brackets
import InlineQuery.Proofs.Titles.FullTitles
import InlineQuery.Proofs.Writing.Literals
