import PackedColumn.Config
import PackedColumn.Query
import PackedColumn.Record
import PackedColumn.Proofs.Contents
import PackedColumn.Proofs.Offset
import PackedColumn.Proofs.Delimited
import PackedColumn.Proofs.Scan
import PackedColumn.Proofs.Replace
import PackedColumn.Proofs.Seam
import PackedColumn.Proofs.Eval
import PackedColumn.Proofs.Members
import PackedColumn.Proofs.Refinement
import PackedColumn.Proofs.Distinct
import PackedColumn.Proofs.Splice
import PackedColumn.Proofs.Literal
import PackedColumn.Proofs.Named
import PackedColumn.Proofs.Unambiguous
import PackedColumn.Edit
import PackedColumn.Proofs.Levels
import PackedColumn.Proofs.Order
import PackedColumn.Proofs.Commute
import PackedColumn.Proofs.Pruned
import PackedColumn.Proofs.Constructor
import PackedColumn.Proofs.Leaves
import PackedColumn.Proofs.Rebuild
import PackedColumn.Proofs.Incremental
import PackedColumn.Proofs.Statement
import PackedColumn.Proofs.Tokens
import PackedColumn.Proofs.TypeGrammar
import PackedColumn.Proofs.Values
import PackedColumn.Proofs.WholeNumber
import PackedColumn.Proofs.Failure
import PackedColumn.Proofs.Grammar
import PackedColumn.Proofs.CallItem
import PackedColumn.Proofs.LetterCase
import PackedColumn.Proofs.Report
import PackedColumn.Proofs.Flatten
import PackedColumn.Proofs.Removal
import PackedColumn.Proofs.FirstArray
import PackedColumn.Proofs.Compact
import PackedColumn.Proofs.Document
import PackedColumn.Proofs.Spelling
import PackedColumn.Proofs.TrailingWord
import PackedColumn.Proofs.Projected
import PackedColumn.Proofs.QuotedName
import PackedColumn.Proofs.Containers
import PackedColumn.Proofs.IgnoredType
import PackedColumn.Proofs.NameInQuotes
import PackedColumn.Proofs.DottedName
import PackedColumn.Proofs.LiteralEnd
import PackedColumn.Proofs.MarkerFree
import PackedColumn.Proofs.KnownMembers
import PackedColumn.Proofs.Overlay
