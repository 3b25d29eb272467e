import Offside.Source.Span
import Offside.Source.Excerpt
import Offside.Source.Diagnostic
import Offside.Failure
import Offside.Files.Tree
import Offside.Document.Build
import Offside.Document.Source
import Offside.Json.Document
import Offside.Page
import Offside.Command.Run
import Offside.Main
import Offside.Proofs.Contract.Pipeline
import Offside.Proofs.Confinement.Pipeline
import Offside.Proofs.Html.Refinement
import Offside.Proofs.Html.Structure
import Offside.Proofs.Html.Termination
import Offside.Proofs.Layout.RoundTrip
import Offside.Proofs.Inclusion.Depth
import Offside.Proofs.Inclusion.Pasting
import Offside.Proofs.Inheritance.Chain
import Offside.Proofs.Inheritance.NormalForm
import Offside.Proofs.Inheritance.Targets
import Offside.Proofs.Inheritance.Yields
import Offside.Proofs.Nesting.Extension
import Offside.Proofs.Nesting.Words
import Offside.Proofs.Nesting.Text
import Offside.Proofs.Nesting.Blocks
import Offside.Proofs.Nesting.Lines
import Offside.Proofs.Nesting.Run
import Offside.Proofs.Levels.Run
import Offside.Proofs.Inline.Content
import Offside.Proofs.Inline.Marker
import Offside.Proofs.Inline.RoundTrip
import Offside.Proofs.Conservation.Document
import Offside.Proofs.Provenance.Pipeline
import Offside.Proofs.Provenance.Origins
import Offside.Proofs.Renumbering.LineEnds
import Offside.Proofs.Position.Run
import Offside.Proofs.Translation.Run
import Offside.Proofs.BlankLine.Page
import Offside.Proofs.Brackets.Region
import Offside.Proofs.TextBlock.Verbatim
import Offside.Proofs.Attributes.RoundTrip
import Offside.Proofs.Attributes.Repetition
import Offside.Proofs.Arguments.Arrival
import Offside.Proofs.Filtering.Rewriting
import Offside.Proofs.Filtering.Chaining
import Offside.Proofs.Html.StartTag
import Offside.Proofs.Dissolving.Grammar
import Offside.Proofs.Filtering.Aliases
import Offside.Proofs.Inclusion.Anchoring
import Offside.Proofs.Html.Scoping
import Offside.Proofs.Slicing.Run
import Offside.Proofs.Excerpt
import Offside.Proofs.Finishing.Document
import Offside.Proofs.Progress.Run
