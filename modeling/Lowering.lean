import Lowering.Span
import Lowering.Datum
import Lowering.Text.Joined
import Lowering.Text.Hidden
import Lowering.Text.Quoted
import Lowering.Binary64.Basic
import Lowering.Binary64.Shortest
import Lowering.Literal
import Lowering.Operator
import Lowering.Token
import Lowering.MacroRules
import Lowering.Attribute
import Lowering.NameMap
import Lowering.Surface.Syntax
import Lowering.Surface.Equality
import Lowering.Surface.Item
import Lowering.Core.ItemPath
import Lowering.Core.Node
import Lowering.Core.Syntax
import Lowering.Core.Text
import Lowering.Core.Equality
import Lowering.Core.Term
import Lowering.Core.Item
import Lowering.Core.Module
import Lowering.Diagnostic
import Lowering.Event
import Lowering.Config
import Lowering.ConfigFile
import Lowering.Toml.Value
import Lowering.Toml.Scalar
import Lowering.Toml.Document
import Lowering.Lower.Fragment
import Lowering.Lower.Item
import Lowering.Lower.Module
import Lowering.Proofs.Steps
import Lowering.Proofs.NameMap
import Lowering.Proofs.Reading
import Lowering.Proofs.Meaning
import Lowering.Proofs.MeaningKept
import Lowering.Proofs.Declared
import Lowering.Proofs.Entries
import Lowering.Proofs.Faults
import Lowering.Proofs.Parts
import Lowering.Proofs.Allocation
import Lowering.Proofs.Everywhere
import Lowering.Proofs.BottomUp
import Lowering.Proofs.Placement
import Lowering.Proofs.OnePass
import Lowering.Proofs.Rewriting
import Lowering.Proofs.Desugaring
import Lowering.Proofs.NormalForm
import Lowering.Proofs.Coherence
import Lowering.Proofs.FragmentFaults
import Lowering.Proofs.PostOrder
import Lowering.Proofs.Canonical
import Lowering.Proofs.Reordering
import Lowering.Proofs.MacroTable
import Lowering.Proofs.ItemRewriting
import Lowering.Proofs.Relocation
import Lowering.Proofs.ClashFree
import Lowering.Proofs.Ignored
import Lowering.Proofs.Rerooting
import Lowering.Proofs.CanonicalCrate
import Lowering.Proofs.Account
import Lowering.Proofs.ParameterKinds
import Lowering.Proofs.Store
import Lowering.Proofs.TraitItems
import Lowering.Proofs.Separable
import Lowering.Proofs.TypeText
import Lowering.Proofs.Unambiguous
import Lowering.Proofs.AttributeText
import Lowering.Proofs.PatternText
import Lowering.Proofs.TermText
import Lowering.Proofs.Unfolded
import Lowering.Proofs.SurfaceText
import Lowering.Proofs.Phrase
import Lowering.Proofs.OperatorText
import Lowering.Proofs.Grouping
