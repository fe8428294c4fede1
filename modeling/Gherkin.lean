import Gherkin.Main
import Gherkin.Tree.Edit
import Gherkin.Tree.Events
import Gherkin.Proofs.EventGrammar
import Gherkin.Proofs.Grammar.Acceptance
import Gherkin.Proofs.Layout.Forgetting
import Gherkin.Proofs.Tree.Nesting
import Gherkin.Proofs.Ledger.Accounted
import Gherkin.Proofs.Spans
import Gherkin.Proofs.Asides
import Gherkin.Proofs.Tagging
import Gherkin.Proofs.FailFast
import Gherkin.Proofs.Source.Positions
import Gherkin.Proofs.Terminators
import Gherkin.Proofs.Spacing
import Gherkin.Proofs.Command.Validity
import Gherkin.Proofs.Quotations
import Gherkin.Proofs.Layout.Colors
import Gherkin.Proofs.Turns
import Gherkin.Proofs.Pinpointing
import Gherkin.Proofs.Layout.Alignment
import Gherkin.Proofs.Grammar.Pieces
import Gherkin.Proofs.Rows
import Gherkin.Proofs.Json.Lossless
import Gherkin.Proofs.Listing
import Gherkin.Proofs.Source.Partition
