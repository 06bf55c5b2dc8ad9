import ContextFree.Analysis.Linear
import ContextFree.Analysis.Reachable
import ContextFree.Analysis.Saturation
import ContextFree.Analysis.UnitClosure
import ContextFree.CommandLine.Options
import ContextFree.CommandLine.Run
import ContextFree.Derivation
import ContextFree.FileTree
import ContextFree.Grammar.Alternatives
import ContextFree.Grammar.Basic
import ContextFree.Grammar.Create
import ContextFree.Grammar.Error
import ContextFree.Grammar.Render
import ContextFree.Grammar.Rules
import ContextFree.Grammar.TextFormat
import ContextFree.Json.Reader
import ContextFree.Json.Shown
import ContextFree.Json.Value
import ContextFree.Json.Writer
import ContextFree.Log.Colour
import ContextFree.Log.Console
import ContextFree.Log.Hierarchy
import ContextFree.Log.Narration
import ContextFree.Log.Record
import ContextFree.Main
import ContextFree.NameSupply
import ContextFree.NormalForm.Basic
import ContextFree.NormalForm.Conversion
import ContextFree.NormalForm.Epsilon
import ContextFree.NormalForm.Reshape
import ContextFree.NormalForm.StartEpsilon
import ContextFree.NormalForm.Unit
import ContextFree.NormalForm.Useless
import ContextFree.Number.Binary64
import ContextFree.Number.Integer
import ContextFree.Number.Shortest
import ContextFree.Settings
import ContextFree.Symbol.Basic
import ContextFree.Symbol.Split
import ContextFree.Text.Blank
import ContextFree.Text.Printable
import ContextFree.Text.Quoted
import ContextFree.Text.Ranges
import ContextFree.Text.Utf8
import ContextFree.Text.WordCharacter
import ContextFree.Words
import ContextFree.Proofs.Reading
import ContextFree.Proofs.Saturation
import ContextFree.Proofs.Unit
import ContextFree.Proofs.Epsilon
import ContextFree.Proofs.NameSupply
import ContextFree.Proofs.Variants
import ContextFree.Proofs.Unfolding
import ContextFree.Proofs.Useless
import ContextFree.Proofs.Reshape
import ContextFree.Proofs.StartEpsilon
import ContextFree.Proofs.NormalForm
import ContextFree.Proofs.Stages
import ContextFree.NormalForm.Showing
import ContextFree.NormalForm.Pass
import ContextFree.Proofs.Conversion
import ContextFree.Proofs.Passes
import ContextFree.Proofs.Words
import ContextFree.Proofs.Reduced
import ContextFree.Proofs.Steps
import ContextFree.Proofs.Rounds
import ContextFree.Proofs.Same
import ContextFree.Proofs.Create
import ContextFree.Proofs.Determinism
import ContextFree.Proofs.Pieces
import ContextFree.Proofs.Split
import ContextFree.Proofs.PreferredSplit
import ContextFree.Proofs.FirstArrow
import ContextFree.Proofs.LineReading
import ContextFree.Proofs.Rendering
import ContextFree.Proofs.RoundTrip
import ContextFree.Proofs.FirstFree
import ContextFree.Proofs.Sharing
import ContextFree.Proofs.HelperMeaning
import ContextFree.Proofs.Idempotence
import ContextFree.Proofs.Exactness
import ContextFree.Proofs.Analyses
import ContextFree.Proofs.Pruning
import ContextFree.Proofs.Regular
import ContextFree.Proofs.Prepared
import ContextFree.Proofs.FileByFile
import ContextFree.Proofs.Interruption
import ContextFree.Proofs.DerivationLength
import ContextFree.Proofs.Acceptance
import ContextFree.Proofs.TextLines
import ContextFree.Proofs.GroupedRules
import ContextFree.Proofs.CompoundLeftSides
import ContextFree.Proofs.WrittenBodies
import ContextFree.Proofs.JsonReading
import ContextFree.Proofs.JsonRoundTrip
import ContextFree.Proofs.SavedSettings
