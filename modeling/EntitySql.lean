import EntitySql.Main
import EntitySql.Script.Run
import EntitySql.Statement.Preview
import EntitySql.Proofs.Meaning
import EntitySql.Proofs.Lockstep
import EntitySql.Proofs.Operations
import EntitySql.Proofs.Kinds
import EntitySql.Proofs.Bindings
import EntitySql.Proofs.Tokens
import EntitySql.Proofs.Shapes
import EntitySql.Proofs.Interference
import EntitySql.Proofs.Exchange
import EntitySql.Proofs.Pins
import EntitySql.Proofs.Reread
import EntitySql.Proofs.Passes
import EntitySql.Proofs.Handles
import EntitySql.Proofs.Brackets
import EntitySql.Proofs.RowChanges
import EntitySql.Proofs.Pages
import EntitySql.Proofs.BulkRows
import EntitySql.Proofs.PrintedConditions
import EntitySql.Proofs.Preparation
import EntitySql.Proofs.LateFailures
import EntitySql.Proofs.FilterDocuments
import EntitySql.Proofs.Served
import EntitySql.Proofs.FirstUses
import EntitySql.Proofs.OwnNames
import EntitySql.Proofs.Complements
import EntitySql.Proofs.FailedStatements
import EntitySql.Proofs.NestedHandles
import EntitySql.Proofs.DocumentColumns
import EntitySql.Proofs.Negations
import EntitySql.Proofs.Patterns
import EntitySql.Proofs.Literals
import EntitySql.Proofs.IntegerOperands
import EntitySql.Proofs.DateOrder
import EntitySql.Proofs.StableCells
import EntitySql.Proofs.WrittenColumns
import EntitySql.Proofs.LoggedCommands
import EntitySql.Proofs.Signals
import EntitySql.Proofs.Pieces
import EntitySql.Proofs.OrderDocuments
import EntitySql.Proofs.OrderTexts
import EntitySql.Proofs.StatementColumns
import EntitySql.Proofs.Conjunctions
import EntitySql.Proofs.DefinitionTexts
import EntitySql.Proofs.QuotedNames
import EntitySql.Proofs.StatementKinds
import EntitySql.Proofs.WrappedNames
import EntitySql.Proofs.TokenGrammar
import EntitySql.Proofs.OneLine
import EntitySql.Proofs.SameValues
