import Gherkin.Text.Basic

/-!
# JSON Text

Values of JSON and the two ways to write them: on one line without spaces,
or spread over lines with two spaces of indentation. Members of an object are
kept and written in the order given. Numbers are natural numbers, which is
all that documents need.

Only the quote, the backslash and the controls below the space are escaped;
every other character stands for itself.

## Main definitions

* `Json`: The values.
* `Json.compact`: A value on one line.
* `Json.pretty`: A value spread over lines.
-/

namespace Gherkin

/-- A value of JSON. -/
inductive Json where
  | null
  | bool (value : Bool)
  | num (value : Nat)
  | str (value : String)
  | arr (items : List Json)
  | obj (members : List (String × Json))

namespace Json

/-- One character as it stands inside a JSON string. -/
def escape (c : Char) : List Char :=
  if c == '"' then ['\\', '"']
  else if c == '\\' then ['\\', '\\']
  else if c == '\n' then ['\\', 'n']
  else if c == '\r' then ['\\', 'r']
  else if c == '\t' then ['\\', 't']
  else if c == '\x08' then ['\\', 'b']
  else if c == '\x0c' then ['\\', 'f']
  else if c.toNat < 0x20 then
    ['\\', 'u', '0', '0', Nat.digitChar (c.toNat / 16), Nat.digitChar (c.toNat % 16)]
  else [c]

/-- A JSON string. -/
def quote (text : String) : String :=
  String.ofList ('"' :: text.toList.flatMap escape ++ ['"'])

mutual

/-- A value on one line, without spaces. -/
def compact : Json → String
  | .null => "null"
  | .bool value => if value then "true" else "false"
  | .num value => toString value
  | .str value => quote value
  | .arr items => "[" ++ ",".intercalate (compactItems items) ++ "]"
  | .obj members => "\x7b" ++ ",".intercalate (compactMembers members) ++ "\x7d"

/-- The items of an array, each on one line. -/
def compactItems : List Json → List String
  | [] => []
  | item :: rest => compact item :: compactItems rest

/-- The members of an object, each on one line. -/
def compactMembers : List (String × Json) → List String
  | [] => []
  | (key, value) :: rest => (quote key ++ ":" ++ compact value) :: compactMembers rest

end

/-- The start of a line at a depth. -/
def lineStart (depth : Nat) : String :=
  "\n" ++ Text.spaces (2 * depth)

/-- Parts between brackets, each on a line of its own one level deeper than
    the brackets; nothing stands between the brackets when there is none. -/
def bracketed (opener closer : String) (depth : Nat) (parts : List String) : String :=
  if parts.isEmpty then opener ++ closer
  else
    opener ++ lineStart (depth + 1) ++ ("," ++ lineStart (depth + 1)).intercalate parts ++
      lineStart depth ++ closer

mutual

/-- A value spread over lines, inside something at the given depth. -/
def prettyAt (depth : Nat) : Json → String
  | .null => "null"
  | .bool value => if value then "true" else "false"
  | .num value => toString value
  | .str value => quote value
  | .arr items => bracketed "[" "]" depth (prettyItems (depth + 1) items)
  | .obj members => bracketed "\x7b" "\x7d" depth (prettyMembers (depth + 1) members)

/-- The items of an array, each spread over lines. -/
def prettyItems (depth : Nat) : List Json → List String
  | [] => []
  | item :: rest => prettyAt depth item :: prettyItems depth rest

/-- The members of an object, each spread over lines. -/
def prettyMembers (depth : Nat) : List (String × Json) → List String
  | [] => []
  | (key, value) :: rest =>
    (quote key ++ ": " ++ prettyAt depth value) :: prettyMembers depth rest

end

/-- A value spread over lines. -/
def pretty (value : Json) : String :=
  prettyAt 0 value

/-- A list of strings. -/
def strings (texts : List String) : Json :=
  .arr (texts.map .str)

/-- A member of an object that is left out when its list is empty. -/
def unlessEmpty (key : String) (texts : List String) : List (String × Json) :=
  if texts.isEmpty then [] else [(key, strings texts)]

/-- A member of an object that is left out when it has no value. -/
def ifPresent (key : String) (text : Option String) : List (String × Json) :=
  match text with
  | none => []
  | some text => [(key, .str text)]

end Json

end Gherkin
