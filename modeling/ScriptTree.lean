import ScriptTree.FoldSuite
import ScriptTree.Options.Document
import ScriptTree.Script
import ScriptTree.Proofs.Evaluation
import ScriptTree.Proofs.FunctionTable
import ScriptTree.Proofs.Syntax.Expression
import ScriptTree.Proofs.Syntax.Statement
import ScriptTree.Proofs.Syntax.Embedded
import ScriptTree.Proofs.Construction.Run
import ScriptTree.Proofs.Construction.Parts
import ScriptTree.Proofs.Construction.Translation
import ScriptTree.Proofs.Construction.Replay
import ScriptTree.Proofs.Construction.Reconstruction
import ScriptTree.Proofs.Construction.History
import ScriptTree.Proofs.Construction.Account
import ScriptTree.Proofs.Folding.Tree
import ScriptTree.Proofs.Folding.Decision
import ScriptTree.Proofs.Folding.Simulation
import ScriptTree.Proofs.Folding.Meaning
import ScriptTree.Proofs.Folding.NormalForm
import ScriptTree.Proofs.Lines.Stamp
import ScriptTree.Proofs.Lines.Erasure
import ScriptTree.Proofs.Evaluation.Integer
import ScriptTree.Proofs.Evaluation.Tree
import ScriptTree.Proofs.Evaluation.Kind
import ScriptTree.Proofs.Folding.Collapse
import ScriptTree.Proofs.Folding.Wrapping
import ScriptTree.Proofs.Double
import ScriptTree.Proofs.Evaluation.Comparison
import ScriptTree.Proofs.Folding.Trace
import ScriptTree.Proofs.Construction.Rejection
import ScriptTree.Proofs.Text.Written
import ScriptTree.Proofs.Library
import ScriptTree.Proofs.Result
import ScriptTree.Proofs.Record
import ScriptTree.Proofs.Record.Offence
import ScriptTree.Proofs.Record.Held
import ScriptTree.Proofs.FoldSuite
import ScriptTree.Proofs.Double.Equality
import ScriptTree.Proofs.Equality.Expression
import ScriptTree.Proofs.Equality.Statement
import ScriptTree.Proofs.Equality.Product
import ScriptTree.Proofs.Construction.Lists
import ScriptTree.Proofs.Yaml.Aliases
import ScriptTree.Proofs.Yaml.Decode
import ScriptTree.Proofs.Yaml.Reading
import ScriptTree.Proofs.Yaml.Shape
import ScriptTree.Proofs.Yaml.Entries
import ScriptTree.Proofs.Yaml.Fault
import ScriptTree.Proofs.Yaml.Lines
import ScriptTree.Proofs.Yaml.Numerals
import ScriptTree.Proofs.Double.Whole
import ScriptTree.Proofs.Yaml.Plain
import ScriptTree.Proofs.Yaml.Library
import ScriptTree.Proofs.Options.Decision
import ScriptTree.Proofs.Options.Written
import ScriptTree.Proofs.FoldSuite.Literal
import ScriptTree.Proofs.FoldSuite.Cases
import ScriptTree.Proofs.FoldSuite.Loading
