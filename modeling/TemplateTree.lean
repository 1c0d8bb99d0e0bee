import TemplateTree.Source
import TemplateTree.Numeral
import TemplateTree.Path
import TemplateTree.Tag.Marks
import TemplateTree.Expr.Equality
import TemplateTree.Statement.Equality
import TemplateTree.Builder
import TemplateTree.Json.Statement
import TemplateTree.Session.Call
import TemplateTree.Proofs.Source.Text
import TemplateTree.Proofs.Slot.Suffix
import TemplateTree.Proofs.Path.Resolution
import TemplateTree.Proofs.Path.Canonical
import TemplateTree.Proofs.Path.References
import TemplateTree.Proofs.Path.Layout
import TemplateTree.Proofs.Path.Unambiguous
import TemplateTree.Proofs.Json.Readers
import TemplateTree.Proofs.Json.RoundTrip
import TemplateTree.Proofs.Json.Schema
import TemplateTree.Proofs.Json.Acceptance
import TemplateTree.Proofs.Block.Assembly
import TemplateTree.Proofs.Block.ElseChain
import TemplateTree.Proofs.Block.Classification
import TemplateTree.Proofs.Block.AnonymousSlot
import TemplateTree.Proofs.Block.SlotPath
import TemplateTree.Proofs.Block.Faults
import TemplateTree.Proofs.Block.Frame
import TemplateTree.Proofs.Session.Derivation
import TemplateTree.Proofs.Session.Soundness
import TemplateTree.Proofs.Session.Decorators
import TemplateTree.Proofs.Session.Slots
import TemplateTree.Proofs.Relocation.Session
import TemplateTree.Proofs.Comment.Markup
import TemplateTree.Proofs.Numeral.Rounding
import TemplateTree.Proofs.Numeral.Nearest
import TemplateTree.Proofs.Numeral.Grammar
import TemplateTree.Proofs.Numeral.Literal
import TemplateTree.Json.Text
