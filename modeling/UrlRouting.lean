import UrlRouting.Main
import UrlRouting.Proofs.Expression.Constructs
import UrlRouting.Proofs.Expression.Renumbering
import UrlRouting.Proofs.Expression.Enclosure
import UrlRouting.Proofs.Expression.Enclosed
import UrlRouting.Proofs.Expression.Numbering
import UrlRouting.Proofs.Expression.EnclosedRun
import UrlRouting.Proofs.Expression.Sequence
import UrlRouting.Proofs.Expression.Literal
import UrlRouting.Proofs.Expression.Compiled
import UrlRouting.Proofs.Pattern.Layout
import UrlRouting.Proofs.Pattern.Reading
import UrlRouting.Proofs.Expression.Matching
import UrlRouting.Proofs.Pattern.Ending
import UrlRouting.Proofs.Pattern.Plain
import UrlRouting.Proofs.Pattern.Splitting
import UrlRouting.Proofs.Pattern.Capture
import UrlRouting.Proofs.Pattern.PlainBuild
import UrlRouting.Proofs.Pattern.PlainMatch
import UrlRouting.Proofs.Route.WildcardArg
import UrlRouting.Proofs.Pattern.Constraint
import UrlRouting.Proofs.Value.Variation
import UrlRouting.Proofs.Pattern.Matcher
import UrlRouting.Proofs.Route.Template
import UrlRouting.Proofs.Route.Built
import UrlRouting.Proofs.Route.Taking
import UrlRouting.Proofs.Route.Moves
import UrlRouting.Proofs.Route.Occurrence
import UrlRouting.Proofs.Route.Forgetting
import UrlRouting.Proofs.Route.RoundTrip
import UrlRouting.Proofs.Route.Links
import UrlRouting.Proofs.Route.Agreement
import UrlRouting.Proofs.Expression.Ways
import UrlRouting.Proofs.Expression.Onward
import UrlRouting.Proofs.Expression.Window
import UrlRouting.Proofs.Expression.Slashless
import UrlRouting.Proofs.Expression.Isolation
import UrlRouting.Proofs.Pattern.Places
import UrlRouting.Proofs.Pattern.Enforcement
import UrlRouting.Proofs.Route.Enforcement
import UrlRouting.Proofs.Router.Table
import UrlRouting.Proofs.Router.Methods
import UrlRouting.Proofs.Route.Survival
import UrlRouting.Proofs.Expression.Passage
import UrlRouting.Proofs.Pattern.Passage
import UrlRouting.Proofs.Router.Priority
import UrlRouting.Proofs.Route.LetterCase
import UrlRouting.Proofs.Number.Whole
import UrlRouting.Proofs.Value.Key
import UrlRouting.Proofs.Route.Merging
import UrlRouting.Proofs.Route.Admission
import UrlRouting.Proofs.Route.Assignment
import UrlRouting.Proofs.Router.Reverse
import UrlRouting.Proofs.Expression.Alternatives
import UrlRouting.Proofs.Pattern.Widening
import UrlRouting.Proofs.Pattern.Grammar
import UrlRouting.Proofs.Value.Reordering
import UrlRouting.Proofs.Route.Equality
import UrlRouting.Proofs.Text.Integer
import UrlRouting.Proofs.CommandLine.Pair
import UrlRouting.Proofs.Route.Filling
import UrlRouting.Proofs.CommandLine.Reversal
import UrlRouting.Proofs.Router.Filter
import UrlRouting.Proofs.Method.Union
import UrlRouting.Proofs.CommandLine.Specifier
import UrlRouting.Proofs.CommandLine.Coercion
import UrlRouting.Proofs.CommandLine.Listing
