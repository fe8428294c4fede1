import Gherkin.Text.Basic

/-!
# Files

A command reads and writes by path, and what a path leads to is not its
business: that is for the system it runs on. `System` is all that a command sees
of one, a way to read a path and a way to write to it, for files in a state of
any type. Nothing else is known about it.

`Files` is a system held as a value. It has a root, directories below it, files
with their bytes and devices, and a command runs in one of the directories. A
path is followed name by name, from that directory or, when it starts with a
slash, from the root. So a file has many paths: a single dot and a doubled slash
stay where they are, and two dots go up, but not above the root.

## Main definitions

* `FileError`: Why a file cannot be read or written.
* `System`: What a command can do with paths.
* `Files`: Files, directories and devices by their names.
* `Files.follow`: What names lead to.
* `Files.read`: The bytes that a path leads to.
* `Files.write`: What a text that is written to a path leaves behind.
* `Files.system`: Files as a system.
* `Files.changes`: The files that differ from earlier ones.
-/

namespace Gherkin

namespace Command

/-- Why a file cannot be read or written. The last case holds what the
    operating system says about anything else. -/
inductive FileError where
  | notFound
  | notDirectory
  | isDirectory
  | nameTooLong
  | notText
  | system (words : String)
  deriving DecidableEq, Repr

/-- What the operating system says about an error. -/
def FileError.message : FileError → String
  | .notFound => "No such file or directory (os error 2)"
  | .notDirectory => "Not a directory (os error 20)"
  | .isDirectory => "Is a directory (os error 21)"
  | .nameTooLong => "File name too long (os error 36)"
  | .notText => "stream did not contain valid UTF-8"
  | .system words => words

/-- The text that bytes encode. -/
def decode (bytes : ByteArray) : Except FileError String :=
  match String.fromUTF8? bytes with
  | some text => .ok text
  | none => .error .notText

/-- What is left behind by a text that was written to a path: the files, what
    came out on standard output because the path leads there, and why the
    writing failed, if it did. Even then the files may have changed. -/
structure Written (σ : Type) where
  files : σ
  stdout : String := ""
  error : Option FileError := none

/-- What a command can do with paths and with standard input, on a system whose
    files are in a state of type `σ`. Reading leaves the state as it is. -/
structure System (σ : Type) where
  /-- The bytes of standard input. -/
  stdin : σ → Except FileError ByteArray
  /-- The bytes that a path leads to. -/
  read : σ → String → Except FileError ByteArray
  /-- Write a text to a path. -/
  write : σ → String → String → Written σ

/-- The most bytes of a name in a path. -/
def maxNameSize : Nat := 255

/-- The most bytes of a path. -/
def maxPathSize : Nat := 4095

/-- A device that a path can name: the standard streams, and the one that is
    empty and keeps nothing. -/
inductive Device where
  | null
  | stdin
  | stdout
  | stderr
  deriving DecidableEq, Repr

/-- What has a name in a directory. -/
inductive Node where
  | directory
  | file (bytes : ByteArray)
  | device (device : Device)

/-- Where a path leads: to the end of these names, counted from the root, and to
    what is there. If nothing is, a file can be put there. -/
structure Destination where
  names : List String
  node : Option Node

/-- Where a written text goes. -/
inductive Sink where
  | file (names : List String)
  | stdout
  | elsewhere
  deriving DecidableEq, Repr

/-- A path taken apart: whether it starts at the root, the names in it, and
    whether a slash ends it. -/
structure Route where
  rooted : Bool
  names : List String
  slashed : Bool
  deriving DecidableEq, Repr

/-- The names in a path. Doubled slashes have nothing between them. -/
def namesOf (path : String) : List String :=
  ((Text.cutAt '/' path.toList).map String.ofList).filter (fun name => !name.isEmpty)

/-- Take a path apart. An empty path leads nowhere, and a path has only so
    many bytes. -/
def Route.ofPath (path : String) : Except FileError Route :=
  if path.isEmpty then .error .notFound
  else if path.utf8ByteSize > maxPathSize then .error .nameTooLong
  else
    .ok {
      rooted := path.toList.head? == some '/'
      names := namesOf path
      slashed := path.toList.getLast? == some '/' }

/-- Files, directories and devices, each by the names on the way to it from the
    root, and the directory that a command runs in. What something lies below is
    a directory without being listed. -/
structure Files where
  nodes : List (List String × Node) := []
  here : List String := []

namespace Files

/-- Whether names are on the way to something else. -/
def leadsOn (files : Files) (names : List String) : Bool :=
  names.isPrefixOf files.here ||
    files.nodes.any (fun node => names.isPrefixOf node.1 && node.1.length > names.length)

/-- What names from the root lead to. -/
def node? (files : Files) (names : List String) : Option Node :=
  if files.leadsOn names then some .directory
  else (files.nodes.find? (fun node => node.1 == names)).map (·.2)

/-- Follow names from a directory on. Only the last of them can be anything
    but a directory. -/
def follow (files : Files) : List String → List String → Except FileError Destination
  | place, [] => .ok ⟨place, some .directory⟩
  | place, name :: rest =>
    if name == "." then follow files place rest
    else if name == ".." then follow files place.dropLast rest
    else if name.utf8ByteSize > maxNameSize then .error .nameTooLong
    else
      match files.node? (place ++ [name]) with
      | some .directory => follow files (place ++ [name]) rest
      | found =>
        if rest.isEmpty then .ok ⟨place ++ [name], found⟩
        else if found.isNone then .error .notFound
        else .error .notDirectory

/-- The directory that a path starts in. -/
def startOf (files : Files) (route : Route) : List String :=
  if route.rooted then [] else files.here

/-- The bytes that a device gives. -/
def deviceBytes (stdin : ByteArray) : Device → ByteArray
  | .stdin => stdin
  | _ => ByteArray.empty

/-- The bytes that a path leads to, given those of standard input. A slash at
    the end of a path asks for a directory, and directories have none. -/
def read (files : Files) (stdin : ByteArray) (path : String) : Except FileError ByteArray := do
  let route ← Route.ofPath path
  let destination ← files.follow (files.startOf route) route.names
  match destination.node with
  | some (.file bytes) => if route.slashed then .error .notDirectory else .ok bytes
  | some (.device device) =>
    if route.slashed then .error .notDirectory else .ok (deviceBytes stdin device)
  | some .directory => .error .isDirectory
  | none => .error .notFound

/-- Where a text goes that is written to a path. A path with a slash at its
    end cannot be written to, whatever its last name is; only the way to that
    name is looked at. -/
def sink (files : Files) (path : String) : Except FileError Sink := do
  let route ← Route.ofPath path
  if route.slashed then
    let destination ← files.follow (files.startOf route) route.names.dropLast
    match destination.node with
    | some .directory => .error .isDirectory
    | none => .error .notFound
    | _ => .error .notDirectory
  else
    let destination ← files.follow (files.startOf route) route.names
    match destination.node with
    | some (.device .stdout) => .ok .stdout
    | some (.device _) => .ok .elsewhere
    | some .directory => .error .isDirectory
    | _ => .ok (.file destination.names)

/-- Give a file other contents, or add it. -/
def put (files : Files) (names : List String) (bytes : ByteArray) : Files :=
  { files with
    nodes := files.nodes.filter (fun node => node.1 != names) ++ [(names, .file bytes)] }

/-- What a text that is written to a path leaves behind. -/
def write (files : Files) (path text : String) : Written Files :=
  match files.sink path with
  | .error error => { files, error := some error }
  | .ok (.file names) => { files := files.put names text.toUTF8 }
  | .ok .stdout => { files, stdout := text }
  | .ok .elsewhere => { files }

/-- Files as a system, given the bytes of standard input. -/
def system (stdin : ByteArray) : System Files where
  stdin _ := .ok stdin
  read files path := files.read stdin path
  write := write

/-- The devices of a system, by the names on the way to them. -/
def devices : List (List String × Node) :=
  [(["dev", "null"], .device .null), (["dev", "stdin"], .device .stdin),
    (["dev", "stdout"], .device .stdout), (["dev", "stderr"], .device .stderr)]

/-- The files of a system with nothing but its devices and the files given by
    their paths, which lie in a directory of their own. A command runs there. -/
def ofPaths (contents : List (String × ByteArray)) : Files :=
  let here := ["tmp", "scratch"]
  { here
    nodes := devices ++ contents.map (fun (path, bytes) =>
      (here ++ (namesOf path).filter (· != "."), .file bytes)) }

/-- The bytes of a file. -/
def bytes? (files : Files) (names : List String) : Option ByteArray :=
  match files.node? names with
  | some (.file bytes) => some bytes
  | _ => none

/-- The files below the directory that a command runs in which are new or have
    other contents than before, each by its path from there. -/
def changes (before after : Files) : List (String × ByteArray) :=
  after.nodes.filterMap (fun (names, node) =>
    match node with
    | .file bytes =>
      if after.here.isPrefixOf names &&
          (before.bytes? names).map ByteArray.toList != some bytes.toList then
        some ("/".intercalate (names.drop after.here.length), bytes)
      else none
    | _ => none)

end Files

end Command

end Gherkin
