import BlockScript.Main
import BlockScript.Proofs.Acceptance.Misplaced
import BlockScript.Proofs.Acceptance.Program
import BlockScript.Proofs.Acceptance.Unplugged
import BlockScript.Proofs.Brackets.Program
import BlockScript.Proofs.CommandLine.Outcome
import BlockScript.Proofs.Expression.Lua
import BlockScript.Proofs.Expression.Php
import BlockScript.Proofs.Expression.Python
import BlockScript.Proofs.Flow.Confined
import BlockScript.Proofs.Flow.Hooks
import BlockScript.Proofs.Flow.Labels
import BlockScript.Proofs.Graph.Links
import BlockScript.Proofs.Literal.RoundTrip
import BlockScript.Proofs.Names.Capture
import BlockScript.Proofs.Names.Helpers
import BlockScript.Proofs.Names.History
import BlockScript.Proofs.Names.Outer
import BlockScript.Proofs.Pass.Books
import BlockScript.Proofs.Pass.Comments
import BlockScript.Proofs.Pass.Guard
import BlockScript.Proofs.Pass.Pruned
import BlockScript.Proofs.Suite.Initialised
import BlockScript.Proofs.Suite.Program
import BlockScript.Proofs.Text.Comments
import BlockScript.Proofs.Counting.Literal
import BlockScript.Proofs.Imports.Covered
import BlockScript.Proofs.Imports.Texts
import BlockScript.Proofs.Recipe.Meets
import BlockScript.Proofs.Names.Folded
import BlockScript.Proofs.Number.Nearest
import BlockScript.Proofs.Pass.Ended
import BlockScript.Proofs.Counting.Integers
import BlockScript.Proofs.Expression.Properties
import BlockScript.Proofs.Imports.Program
import BlockScript.Proofs.Imports.Rendering
import BlockScript.Proofs.Report.Lines
import BlockScript.Proofs.Document.Keys
import BlockScript.Proofs.Rules.Bindings
import BlockScript.Proofs.Graph.Preorder
import BlockScript.Proofs.Code.Values
import BlockScript.Proofs.Text.Tidied
