import Gherkin.Json.Encoding
import Gherkin.Proofs.Json.Unambiguous
import Gherkin.Proofs.Text.Cutting

/-!
# Nothing Is Lost in JSON

Events and trees can be read back from their values. A member is looked up by
its key, wherever it stands, and a member that was left out reads as empty.
That is what makes omission harmless: a list is left out only when it is empty
and a comment only when there is none, so absence and presence cannot be
confused. It is also why the members of one node may stand among those of
another, as a block's do in its scenario's object: no key is used twice there.

Each reader below is a plain function, since a tree has only so many levels,
and undoes the writer of the same type. With one value for each text, equal
texts then come from equal trees.

## Main definitions

* `Json.member?`: The member of an object under a key.
* `Event.ofJson?`: The event that a value describes.
* `Feature.ofJson`: The feature that a value describes.

## Theorems

* `Event.ofJson?_toJson`: An event is read back.
* `Feature.ofJson_toJson`: A feature is read back.
* `splitOn_jsonLines`: The lines of a list of events.
* `json_lossless`: No two lists of events and no two features have the same
  text.
-/

namespace Gherkin

namespace Json

/-- The member of an object under a key; no other value has members. -/
def member? (key : String) : Json → Option Json
  | .obj members => members.lookup key
  | _ => none

/-- The text that was found. -/
def readText? : Option Json → Option String
  | some (.str text) => some text
  | _ => none

/-- The text that was found; empty if none was. -/
def readText (found : Option Json) : String :=
  (readText? found).getD ""

/-- The number that was found. -/
def readNumber : Option Json → Nat
  | some (.num number) => number
  | _ => 0

/-- Whether what was found is true. -/
def readFlag : Option Json → Bool
  | some (.bool flag) => flag
  | _ => false

/-- The items that were found; none if the array is missing. -/
def readItems : Option Json → List Json
  | some (.arr items) => items
  | _ => []

/-- The texts that were found; none if the array is missing. -/
def readTexts (found : Option Json) : List String :=
  (readItems found).filterMap (fun item => readText? (some item))

/-- What was found, unless it is `null`. -/
def readPresent? : Option Json → Option Json
  | some .null => none
  | found => found

section Lookup

variable {key other : String}

@[simp]
theorem member?_obj (members : List (String × Json)) :
    (Json.obj members).member? key = members.lookup key := rfl

@[simp]
theorem lookup_cons_ne (value : Json) (members : List (String × Json)) (h : key ≠ other) :
    ((other, value) :: members).lookup key = members.lookup key := by
  rw [List.lookup_cons, beq_false_of_ne h]

@[simp]
theorem lookup_unlessEmpty_self (texts : List String) : (unlessEmpty key texts).lookup key =
    if texts = [] then none else some (strings texts) := by
  cases texts <;> simp [unlessEmpty]

@[simp]
theorem lookup_unlessEmpty_ne (texts : List String) (h : key ≠ other) :
    (unlessEmpty other texts).lookup key = none := by
  cases texts <;> simp [unlessEmpty, h]

@[simp]
theorem lookup_ifPresent_self (text : Option String) :
    (ifPresent key text).lookup key = text.map .str := by
  cases text <;> simp [ifPresent]

@[simp]
theorem lookup_ifPresent_ne (text : Option String) (h : key ≠ other) :
    (ifPresent other text).lookup key = none := by
  cases text <;> simp [ifPresent, h]

@[simp]
theorem readText?_map (text : Option String) : readText? (text.map .str) = text := by
  cases text <;> rfl

@[simp]
theorem readText_str (text : String) : readText (some (.str text)) = text := rfl

@[simp]
theorem readNumber_num (number : Nat) : readNumber (some (.num number)) = number := rfl

@[simp]
theorem readFlag_bool (flag : Bool) : readFlag (some (.bool flag)) = flag := rfl

@[simp]
theorem readItems_arr (items : List Json) : readItems (some (.arr items)) = items := rfl

@[simp]
theorem readTexts_strings (texts : List String) : readTexts (some (strings texts)) = texts := by
  simp [readTexts, strings, List.filterMap_map, readText?]

/-- A list that is left out when it is empty reads as the list. -/
@[simp]
theorem readTexts_unless (texts : List String) :
    readTexts (if texts = [] then none else some (strings texts)) = texts := by
  cases texts with
  | nil => rfl
  | cons text rest => exact readTexts_strings (text :: rest)

/-- What is written as `null` when it is missing reads as missing. -/
theorem map_readPresent? {α : Type} {toJson : α → Json} {ofJson : Json → α}
    (hnull : ∀ a, toJson a ≠ .null) (hread : ∀ a, ofJson (toJson a) = a) (held : Option α) :
    (readPresent? (some ((held.map toJson).getD .null))).map ofJson = held := by
  cases held with
  | none => rfl
  | some a =>
      have hpresent : readPresent? (some (toJson a)) = some (toJson a) := by
        unfold readPresent?
        split
        · exact absurd (Option.some.inj ‹_›) (hnull a)
        · rfl
      rw [Option.map_some, Option.getD_some, hpresent, Option.map_some, hread]

end Lookup

end Json

section Trees

open Json

/-- The step keyword that is written so. -/
def StepKeyword.ofText (word : String) : StepKeyword :=
  (StepKeyword.all.find? (·.text == word)).getD .context

/-- The comments of the node that a value describes. -/
def Comments.ofJson (value : Json) : Comments where
  inline := readText? (value.member? "comment")
  leading := readTexts (value.member? "leading_comments")

/-- The row that a value describes. -/
def Row.ofJson (value : Json) : Row where
  cells := readTexts (value.member? "cells")
  comments := .ofJson value

/-- The table that a value describes. -/
def Table.ofJson (value : Json) : Table where
  rows := (readItems (value.member? "rows")).map Row.ofJson

/-- The doc string that a value describes. -/
def DocString.ofJson (value : Json) : DocString where
  indent := readNumber (value.member? "indent")
  lines := readTexts (value.member? "lines")
  comments := .ofJson value

/-- The argument that a value describes. -/
def Argument.ofJson (value : Json) : Argument :=
  match readText (value.member? "type") with
  | "DocString" => .docString (.ofJson value)
  | "Table" => .table (.ofJson value)
  | _ => .none

/-- The step that a value describes. -/
def Step.ofJson (value : Json) : Step where
  keyword := .ofText (readText (value.member? "keyword"))
  text := readText (value.member? "text")
  tags := readTexts (value.member? "tags")
  argument := .ofJson ((value.member? "argument").getD .null)
  comments := .ofJson value

/-- The block that a value describes. -/
def Block.ofJson (value : Json) : Block where
  title := readText (value.member? "title")
  tags := readTexts (value.member? "tags")
  steps := (readItems (value.member? "steps")).map Step.ofJson
  comments := .ofJson value

/-- The examples that a value describes. -/
def Examples.ofJson (value : Json) : Examples where
  table := .ofJson ((value.member? "table").getD .null)
  comments := .ofJson value

/-- The scenario that a value describes. -/
def Scenario.ofJson (value : Json) : Scenario :=
  match readText (value.member? "kind") with
  | "Outline" => .outline (.ofJson value) ((readPresent? (value.member? "examples")).map .ofJson)
  | _ => .plain (.ofJson value)

/-- The feature that a value describes. -/
def Feature.ofJson (value : Json) : Feature where
  title := readText (value.member? "title")
  description := readText (value.member? "description")
  tags := readTexts (value.member? "tags")
  background := (readPresent? (value.member? "background")).map .ofJson
  scenarios := (readItems (value.member? "scenarios")).map Scenario.ofJson
  comments := .ofJson value
  trailing := readTexts (value.member? "trailing_comments")

theorem StepKeyword.ofText_text (keyword : StepKeyword) : .ofText keyword.text = keyword := by
  cases keyword <;> decide

theorem Row.ofJson_toJson (row : Row) : Row.ofJson row.toJson = row := by
  simp [Row.ofJson, Row.toJson, Comments.ofJson, Comments.members, List.lookup_append]

theorem Table.ofJson_toJson (table : Table) : Table.ofJson table.toJson = table := by
  simp [Table.ofJson, Table.toJson, Table.members, Row.ofJson_toJson, Function.comp_def]

theorem Argument.ofJson_toJson (argument : Argument) :
    Argument.ofJson argument.toJson = argument := by
  cases argument with
  | none => rfl
  | docString doc =>
      simp [Argument.ofJson, Argument.toJson, DocString.ofJson, DocString.members, Comments.ofJson,
        Comments.members, List.lookup_append]
  | table rows =>
      simp [Argument.ofJson, Argument.toJson, Table.ofJson, Table.members, Row.ofJson_toJson,
        Function.comp_def]

theorem Step.ofJson_toJson (step : Step) : Step.ofJson step.toJson = step := by
  simp [Step.ofJson, Step.toJson, Comments.ofJson, Comments.members, List.lookup_append,
    StepKeyword.ofText_text, Argument.ofJson_toJson]

theorem Block.ofJson_toJson (block : Block) : Block.ofJson block.toJson = block := by
  simp [Block.ofJson, Block.toJson, Block.members, Comments.ofJson, Comments.members,
    List.lookup_append, Step.ofJson_toJson, Function.comp_def]

theorem Examples.ofJson_toJson (examples : Examples) :
    Examples.ofJson examples.toJson = examples := by
  simp [Examples.ofJson, Examples.toJson, Comments.ofJson, Comments.members, List.lookup_append,
    Table.ofJson_toJson]

/-- The keys of a block's members. -/
def Block.keys : List String :=
  ["title", "tags", "steps", "comment", "leading_comments"]

theorem Block.ofJson_congr {value other : Json}
    (h : ∀ key ∈ Block.keys, value.member? key = other.member? key) :
    Block.ofJson value = Block.ofJson other := by
  simp only [Block.keys, List.forall_mem_cons] at h
  simp only [Block.ofJson, Comments.ofJson, h]

/-- What a scenario adds to the members of its block is under other keys. -/
theorem Scenario.ofJson_block (scenario : Scenario) :
    Block.ofJson scenario.toJson = scenario.block := by
  refine (Block.ofJson_congr ?_).trans (Block.ofJson_toJson scenario.block)
  cases scenario <;>
    simp [Block.keys, Scenario.toJson, Scenario.block, Block.toJson, List.lookup_append]

theorem Scenario.ofJson_toJson (scenario : Scenario) :
    Scenario.ofJson scenario.toJson = scenario := by
  have hblock := scenario.ofJson_block
  cases scenario with
  | plain block =>
      have hkind : readText ((Scenario.plain block).toJson.member? "kind") = "Plain" := rfl
      rw [Scenario.ofJson, hkind, hblock]
      rfl
  | outline block examples =>
      have hkind : readText ((Scenario.outline block examples).toJson.member? "kind") =
          "Outline" := rfl
      have hexamples : (Scenario.outline block examples).toJson.member? "examples" =
          some ((examples.map Examples.toJson).getD .null) := by
        cases examples <;>
          simp [Scenario.toJson, Block.members, Comments.members, List.lookup_append]
      rw [Scenario.ofJson, hkind, hblock, hexamples]
      exact congrArg (Scenario.outline block)
        (map_readPresent? (by simp [Examples.toJson]) Examples.ofJson_toJson examples)

theorem Feature.ofJson_toJson (feature : Feature) : Feature.ofJson feature.toJson = feature := by
  have hbackground : feature.toJson.member? "background" =
      some ((feature.background.map Block.toJson).getD .null) := by
    cases h : feature.background <;> simp [Feature.toJson, List.lookup_append, h]
  rw [Feature.ofJson, hbackground, map_readPresent? (by simp [Block.toJson]) Block.ofJson_toJson]
  simp [Feature.toJson, Comments.ofJson, Comments.members, List.lookup_append,
    Scenario.ofJson_toJson, Function.comp_def]

end Trees

section Events

open Json

/-- The span that a value describes. -/
def Span.ofJson (value : Json) : Span where
  start := readNumber (value.member? "start")
  stop := readNumber (value.member? "end")

/-- The event that a value describes, told by the name in it. -/
def EventKind.ofJson? (value : Json) : Option EventKind :=
  match readText (value.member? "event") with
  | "Feature" => some (.feature (readText (value.member? "title"))
      (readText (value.member? "description")) (readTexts (value.member? "tags")))
  | "FeatureEnd" => some .featureEnd
  | "Background" => some (ofBlock .background)
  | "BackgroundEnd" => some (.blockEnd .background)
  | "Scenario" => some (ofBlock .scenario)
  | "ScenarioEnd" => some (.blockEnd .scenario)
  | "Outline" => some (ofBlock .outline)
  | "OutlineEnd" => some (.blockEnd .outline)
  | "Step" => some (.step (.ofText (readText (value.member? "keyword")))
      (readText (value.member? "text")) (readTexts (value.member? "tags")))
  | "StepEnd" => some .stepEnd
  | "DocString" => some (.docString (readNumber (value.member? "indent")))
  | "DocStringLine" => some (.docLine (readText (value.member? "line")))
  | "DocStringEnd" => some .docStringEnd
  | "Table" => some .table
  | "TableRow" => some .row
  | "TableCell" => some (.cell (readText (value.member? "content")))
  | "TableRowEnd" => some .rowEnd
  | "TableEnd" => some .tableEnd
  | "OutlineExamples" => some .examples
  | "OutlineExamplesEnd" => some .examplesEnd
  | "BlankLine" => some .blankLine
  | "Comment" => some (.comment (readText (value.member? "text"))
      (readFlag (value.member? "inline")))
  | _ => none
where
  ofBlock (kind : BlockKind) : EventKind :=
    .block kind (readText (value.member? "title")) (readTexts (value.member? "tags"))

/-- The event that a value describes, and where it was seen. -/
def Event.ofJson? (value : Json) : Option Event :=
  (EventKind.ofJson? value).map (⟨·, .ofJson ((value.member? "span").getD .null)⟩)

theorem Span.ofJson_toJson (span : Span) : Span.ofJson span.toJson = span := by
  simp [Span.ofJson, Span.toJson]

/-- The name in an event's object tells what the other members are. -/
theorem EventKind.ofJson?_toJson (event : Event) :
    EventKind.ofJson? event.toJson = some event.kind := by
  cases event with
  | mk kind span =>
      cases kind with
      | block kind title tags =>
          cases kind <;>
            simp [EventKind.ofJson?, EventKind.ofJson?.ofBlock, Event.toJson, EventKind.name,
              BlockKind.eventName, EventKind.members]
      | blockEnd kind =>
          cases kind <;> simp [EventKind.ofJson?, Event.toJson, EventKind.name, BlockKind.eventName]
      | _ =>
          simp [EventKind.ofJson?, Event.toJson, EventKind.name, EventKind.members,
            StepKeyword.ofText_text]

theorem Event.member?_span (event : Event) :
    event.toJson.member? "span" = some event.span.toJson := by
  cases event with
  | mk kind span => cases kind <;> simp [Event.toJson, EventKind.members]

theorem Event.ofJson?_toJson (event : Event) : Event.ofJson? event.toJson = some event := by
  rw [Event.ofJson?, EventKind.ofJson?_toJson, Event.member?_span, Option.getD_some,
    Span.ofJson_toJson, Option.map_some]

theorem Event.toJson_injective : Function.Injective Event.toJson := by
  intro event other h
  have hread := congrArg Event.ofJson? h
  rw [Event.ofJson?_toJson, Event.ofJson?_toJson] at hread
  exact Option.some.inj hread

theorem toList_jsonLines (events : List Event) : (jsonLines events).toList =
    (events.map (fun event => event.toJson.compact.toList)).flatMap (· ++ ['\n']) := by
  simp [jsonLines, String.toList_join, List.flatMap_map]

theorem newline_notMem_objects (events : List Event) :
    ∀ line ∈ events.map (fun event => event.toJson.compact.toList) ++ [[]], '\n' ∉ line := by
  rw [List.forall_mem_append, List.forall_mem_map]
  exact ⟨fun event _ => newline_notMem_compact event.toJson, by simp⟩

/-- Every line of a list of events is the object of an event. -/
theorem splitOn_jsonLines (events : List Event) : (jsonLines events).toList.splitOn '\n' =
    events.map (fun event => event.toJson.compact.toList) ++ [[]] := by
  rw [Text.splitOn_iff, toList_jsonLines, List.append_nil]
  exact ⟨rfl, newline_notMem_objects events⟩

end Events

/-- Events are written one a line, and no two lists of events and no two
    features have the same text. -/
theorem json_lossless :
    (∀ events, (jsonLines events).toList.count '\n' = events.length) ∧
      Function.Injective jsonLines ∧
      Function.Injective (fun feature : Feature => feature.toJson.compact) := by
  refine ⟨?_, ?_, ?_⟩
  · intro events
    have hcount := Text.count_closed (newline_notMem_objects events)
    rwa [List.append_nil, ← toList_jsonLines, List.length_map] at hcount
  · intro events others h
    -- Cut into lines again, the text gives the object of each event.
    have hlines := splitOn_jsonLines events
    rw [h, splitOn_jsonLines] at hlines
    have hmap := (List.append_cancel_right hlines).symm
    refine List.map_injective_iff.mpr ?_ hmap
    intro event other hline
    exact Event.toJson_injective (Json.compact_injective (String.toList_inj.mp hline))
  · intro feature other h
    have hvalue : feature.toJson = other.toJson := Json.compact_injective h
    rw [← feature.ofJson_toJson, hvalue, Feature.ofJson_toJson]

end Gherkin
