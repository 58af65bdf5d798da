import Templating.Main
import Templating.Proofs.Check.Gate
import Templating.Proofs.Check.Totality
import Templating.Proofs.Guard.Printing
import Templating.Proofs.Renderer.Transparency
import Templating.Proofs.Template.EvaluatedGuards
import Templating.Proofs.Template.Seams
import Templating.Record.Kind
import Templating.Proofs.Template.Partition
import Templating.Proofs.Guard.OverlongIntegers
import Templating.Proofs.Check.GuardErrors
import Templating.Proofs.Files.Frames
import Templating.Proofs.Scaffold.Confinement
import Templating.Proofs.Files.Rooted
import Templating.Proofs.Scaffold.Plan
import Templating.Proofs.Scaffold.Replacement
import Templating.Proofs.Scaffold.Delivery
import Templating.Proofs.Scaffold.Refusal
import Templating.Proofs.Command.Refusal
import Templating.Proofs.Cache.Operations
import Templating.Proofs.Cache.History
import Templating.Proofs.Bundle.Gathering
import Templating.Proofs.Cache.Accounting
import Templating.Proofs.Cache.Inclusion
import Templating.Proofs.Renderer.Repetition
import Templating.Proofs.Template.ReadPaths
import Templating.Proofs.Configuration.Overlap
import Templating.Proofs.Check.Alike
import Templating.Proofs.Check.Reporting
import Templating.Proofs.Bundle.Division
import Templating.Proofs.Guard.Comparison
import Templating.Proofs.Template.WrappingLaw
import Templating.Proofs.Template.QuotedGuards
import Templating.Proofs.Configuration.GivenNumbers
import Templating.Proofs.Template.GuardNames
import Templating.Proofs.Template.LeftPlaceholders
import Templating.Proofs.Check.OptionNames
import Templating.Proofs.Check.Duplicates
import Templating.Proofs.Scaffold.PathWarnings
import Templating.Proofs.Scaffold.Repetition
import Templating.Proofs.Configuration.Coercion
import Templating.Proofs.Record.Normalisation
import Templating.Proofs.Check.SpanWarnings
import Templating.Proofs.Guard.LexemePlaces
import Templating.Proofs.Value.PathComposition
