import TemplatedMarkup.Document.ImageType
import TemplatedMarkup.Main
import TemplatedMarkup.Proofs.Builtin.Exactness
import TemplatedMarkup.Proofs.Builtin.Format
import TemplatedMarkup.Proofs.Builtin.Sort
import TemplatedMarkup.Proofs.Builtin.StringSize
import TemplatedMarkup.Proofs.Builtin.Substring
import TemplatedMarkup.Proofs.Decimal.Bits
import TemplatedMarkup.Proofs.Decimal.Notation
import TemplatedMarkup.Proofs.Document.BoundName
import TemplatedMarkup.Proofs.Document.DeclaredKind
import TemplatedMarkup.Proofs.Document.Filter
import TemplatedMarkup.Proofs.Document.FilterArgument
import TemplatedMarkup.Proofs.Document.WrittenBlocks
import TemplatedMarkup.Proofs.Document.WrittenLine
import TemplatedMarkup.Proofs.Document.WrittenTarget
import TemplatedMarkup.Proofs.Expression.Bounded
import TemplatedMarkup.Proofs.Expression.CallDepth
import TemplatedMarkup.Proofs.Expression.ComparisonChain
import TemplatedMarkup.Proofs.Expression.Footprint
import TemplatedMarkup.Proofs.Expression.Height
import TemplatedMarkup.Proofs.Expression.Lexing
import TemplatedMarkup.Proofs.Expression.Renaming
import TemplatedMarkup.Proofs.Expression.Run
import TemplatedMarkup.Proofs.Expression.WellFormed
import TemplatedMarkup.Proofs.Expression.Word
import TemplatedMarkup.Proofs.IndexedTable
import TemplatedMarkup.Proofs.Options
import TemplatedMarkup.Proofs.Page.Context
import TemplatedMarkup.Proofs.Page.Declaration
import TemplatedMarkup.Proofs.Page.Failure
import TemplatedMarkup.Proofs.Page.PlainText
import TemplatedMarkup.Proofs.Page.Recompiling
import TemplatedMarkup.Proofs.Page.Strictness
import TemplatedMarkup.Proofs.Program.TrailingComment
import TemplatedMarkup.Proofs.Template.Concatenation
import TemplatedMarkup.Proofs.Template.Escaping
import TemplatedMarkup.Proofs.Template.LoopHeader
import TemplatedMarkup.Proofs.Template.PathCondition
import TemplatedMarkup.Proofs.Template.Termination
import TemplatedMarkup.Proofs.Template.Trace
import TemplatedMarkup.Proofs.Template.Trimming
import TemplatedMarkup.Proofs.Text.NameCharacter
import TemplatedMarkup.Proofs.TrailingFlag
import TemplatedMarkup.Proofs.Value.Division
import TemplatedMarkup.Proofs.Value.Equality
import TemplatedMarkup.Proofs.Value.Literal
