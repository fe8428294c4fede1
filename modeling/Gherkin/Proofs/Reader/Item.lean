import Gherkin.Reader.Step

/-!
# What a Line Says

The reader decides what a line means and where it lies in one go. Almost
everything worth proving about a document only concerns the first half: which
events it yields, not their spans. This module takes the first half of the
first half. `Item.read?` scans one line, without looking at the lines before
it, and says what is on it.

Only three things about the lines before matter for that. A line of the
description is text whatever it begins with, a line of a doc string is text
unless it is the closing fence, and every other line is what its class says.
`Mode` names the three.

A line that cannot be scanned has no item. Which fault it has is not recorded:
the point of an item is what an accepted line contributes.

## Main definitions

* `Item`: What a line says.
* `Mode`: How a line is to be understood.
* `Item.structural?`: What a line says by its class.
* `Item.read?`: What a line says in a mode.
* `Item.SaidBy`: How a line comes to say something by its class.
* `Item.lineClass`: The class of the lines that say something by their class.

## Theorems

* `Item.structural?_eq_some_iff`: A line says what its class and its scan make
  it say.
* `Item.lineClass_structural?`: What a line says goes with its class.
-/

namespace Gherkin

namespace Reader

/-- What a line says, without where it says it. -/
inductive Item where
  | blank
  | comment (text : String)
  | tags (names : List String) (comment : Option String)
  | feature (title : String) (comment : Option String)
  | prose (text : String) (comment : Option String)
  | block (kind : BlockKind) (title : String) (comment : Option String)
  | step (keyword : StepKeyword) (text : String) (comment : Option String)
  | examples (comment : Option String)
  | row (cells : List String) (comment : Option String)
  | fence (indent : Nat) (comment : Option String)
  | docLine (text : String)
  deriving DecidableEq, Repr

/-- How a line is to be understood: by its class, as a line of the
    description, or as a line of a doc string with this indentation. -/
inductive Mode where
  | structural
  | descriptive
  | verbatim (indent : Nat)
  deriving DecidableEq, Repr

/-- The text of a comment. -/
def Remark.comment (remark : Remark) : String :=
  String.ofList remark.text

/-- The comment that ends a line, if nothing else is left of the line. -/
def ending? (cs : List Char) : Option (Option String) :=
  (scanEnd cs).toOption.map (Option.map Remark.comment)

/-- Text and the comment after it. -/
def phrase? (cs : List Char) : Option (List Char × Option String) :=
  (scanText false cs).toOption.bind fun (text, rest) =>
    (ending? rest).map fun comment => (text, comment)

theorem toOption_eq_some_iff {ε α : Type} {result : Except ε α} {a : α} :
    result.toOption = some a ↔ result = .ok a := by
  cases result with
  | error e => simp [Except.toOption]
  | ok b => simp [Except.toOption]

namespace Item

/-- What a line says by its class. -/
def structural? (text : List Char) : Option Item :=
  let content := Text.skipBlanks text
  match classify text with
  | .blank => some .blank
  | .comment => (ending? text).bind fun remark => remark.map .comment
  | .tags => (scanTags text).toOption.map fun (names, remark) =>
      .tags names (remark.map Remark.comment)
  | .fence => (ending? (content.drop Reader.fence.length)).map
      (.fence (Text.indentation text))
  | .row => (scanRowBody (content.drop 1)).toOption.map fun (cells, remark) =>
      .row (cells.map fun cell => String.ofList cell.text) (remark.map Remark.comment)
  | .heading .feature =>
    (phrase? (Text.skipBlanks (content.drop Heading.feature.text.length))).bind
      fun (title, remark) =>
        if title.isEmpty then none else some (.feature (String.ofList title) remark)
  | .heading (.block kind) =>
    (phrase? (Text.skipBlanks (content.drop (Heading.block kind).text.length))).map
      fun (title, remark) => .block kind (String.ofList title) remark
  | .heading .examples => (ending? (content.drop Heading.examples.text.length)).map .examples
  | .step keyword =>
    (phrase? (Text.skipBlanks (content.drop keyword.text.length))).bind
      fun (words, remark) =>
        if words.isEmpty then none else some (.step keyword (String.ofList words) remark)
  | .text => none

/-- What a line says in the description, when neither its class ends the
    description nor it is trivia. -/
def prose? (text : List Char) : Option Item :=
  (phrase? (Text.skipBlanks text)).map fun (words, remark) =>
    .prose (String.ofList words) remark

/-- What a line says in a mode. -/
def read? : Mode → List Char → Option Item
  | .structural, text => structural? text
  | .descriptive, text =>
    match classify text with
    | .blank | .comment | .tags | .heading (.block _) => structural? text
    | _ => prose? text
  | .verbatim indent, text =>
    match classify text with
    | .fence => structural? text
    | _ => some (.docLine (String.ofList (Text.stripIndent indent text)))

/-- How a line comes to say something by its class: which class it has and
    what the scan behind its keyword or sign yields. -/
def SaidBy (text : List Char) : Item → Prop
  | .blank => classify text = .blank
  | .comment words => classify text = .comment ∧ ending? text = some (some words)
  | .tags names remark => classify text = .tags ∧
      ∃ found, scanTags text = .ok (names, found) ∧ remark = found.map Remark.comment
  | .fence indent remark => classify text = .fence ∧ indent = Text.indentation text ∧
      ending? ((Text.skipBlanks text).drop Reader.fence.length) = some remark
  | .row cells remark => classify text = .row ∧
      ∃ scanned found, scanRowBody ((Text.skipBlanks text).drop 1) = .ok (scanned, found) ∧
        cells = scanned.map (fun cell => String.ofList cell.text) ∧
        remark = found.map Remark.comment
  | .feature title remark => classify text = .heading .feature ∧
      ∃ words, words ≠ [] ∧ title = String.ofList words ∧
        phrase? (Text.skipBlanks ((Text.skipBlanks text).drop Heading.feature.text.length)) =
          some (words, remark)
  | .block kind title remark => classify text = .heading (.block kind) ∧
      ∃ words, title = String.ofList words ∧
        phrase? (Text.skipBlanks ((Text.skipBlanks text).drop
          (Heading.block kind).text.length)) = some (words, remark)
  | .examples remark => classify text = .heading .examples ∧
      ending? ((Text.skipBlanks text).drop Heading.examples.text.length) = some remark
  | .step keyword said remark => classify text = .step keyword ∧
      ∃ words, words ≠ [] ∧ said = String.ofList words ∧
        phrase? (Text.skipBlanks ((Text.skipBlanks text).drop keyword.text.length)) =
          some (words, remark)
  | .prose _ _ | .docLine _ => False

/-- A line says what its class and its scan make it say. -/
theorem structural?_eq_some_iff {text : List Char} {item : Item} :
    structural? text = some item ↔ item.SaidBy text := by
  constructor
  · intro h
    -- Each class has a scanner of its own, and what that yields makes the item.
    unfold structural? at h
    cases hc : classify text with
    | blank =>
        rw [hc, Option.some.injEq] at h
        rw [← h]
        exact hc
    | comment =>
        rw [hc] at h
        rcases Option.bind_eq_some_iff.mp h with ⟨remark, hend, hmap⟩
        rcases Option.map_eq_some_iff.mp hmap with ⟨words, rfl, rfl⟩
        exact ⟨hc, hend⟩
    | tags =>
        rw [hc] at h
        rcases Option.map_eq_some_iff.mp h with ⟨⟨names, remark⟩, hscan, rfl⟩
        exact ⟨hc, remark, toOption_eq_some_iff.mp hscan, rfl⟩
    | fence =>
        rw [hc] at h
        rcases Option.map_eq_some_iff.mp h with ⟨comment, hend, rfl⟩
        exact ⟨hc, rfl, hend⟩
    | row =>
        rw [hc] at h
        rcases Option.map_eq_some_iff.mp h with ⟨⟨scanned, remark⟩, hscan, rfl⟩
        exact ⟨hc, scanned, remark, toOption_eq_some_iff.mp hscan, rfl, rfl⟩
    | heading heading =>
        rw [hc] at h
        rcases heading with _ | kind | _
        · rcases Option.bind_eq_some_iff.mp h with ⟨⟨words, remark⟩, hphrase, hif⟩
          simp only [List.isEmpty_iff, Option.ite_none_left_eq_some, Option.some.injEq] at hif
          rcases hif with ⟨hne, rfl⟩
          exact ⟨hc, words, hne, rfl, hphrase⟩
        · rcases Option.map_eq_some_iff.mp h with ⟨⟨words, remark⟩, hphrase, rfl⟩
          exact ⟨hc, words, rfl, hphrase⟩
        · rcases Option.map_eq_some_iff.mp h with ⟨remark, hend, rfl⟩
          exact ⟨hc, hend⟩
    | step keyword =>
        rw [hc] at h
        rcases Option.bind_eq_some_iff.mp h with ⟨⟨words, remark⟩, hphrase, hif⟩
        simp only [List.isEmpty_iff, Option.ite_none_left_eq_some, Option.some.injEq] at hif
        rcases hif with ⟨hne, rfl⟩
        exact ⟨hc, words, hne, rfl, hphrase⟩
    | text =>
        rw [hc] at h
        exact absurd h (by simp only [reduceCtorEq, not_false_eq_true])
  -- The other way round the item names the class, and the class the scanner.
  · intro h
    cases item with
    | blank => simp only [structural?, show classify text = .blank from h]
    | comment words =>
        rcases h with ⟨hc, hend⟩
        simp [structural?, hc, hend]
    | tags names comment =>
        rcases h with ⟨hc, remark, hscan, rfl⟩
        simp [structural?, hc, toOption_eq_some_iff.mpr hscan]
    | feature title comment =>
        rcases h with ⟨hc, words, hne, rfl, hphrase⟩
        simp [structural?, hc, hphrase, hne]
    | prose words comment => exact absurd h not_false
    | block kind title comment =>
        rcases h with ⟨hc, words, rfl, hphrase⟩
        simp [structural?, hc, hphrase]
    | step keyword said comment =>
        rcases h with ⟨hc, words, hne, rfl, hphrase⟩
        simp [structural?, hc, hphrase, hne]
    | examples comment =>
        rcases h with ⟨hc, hend⟩
        simp [structural?, hc, hend]
    | row cells comment =>
        rcases h with ⟨hc, scanned, remark, hscan, rfl, rfl⟩
        simp only [structural?, hc, toOption_eq_some_iff.mpr hscan, Option.map_some]
    | fence indent comment =>
        rcases h with ⟨hc, rfl, hend⟩
        simp [structural?, hc, hend]
    | docLine words => exact absurd h not_false

/-- The class of the lines that say something by their class. -/
def lineClass : Item → LineClass
  | .blank => .blank
  | .comment _ => .comment
  | .tags _ _ => .tags
  | .feature _ _ => .heading .feature
  | .block kind _ _ => .heading (.block kind)
  | .step keyword _ _ => .step keyword
  | .examples _ => .heading .examples
  | .row _ _ => .row
  | .fence _ _ => .fence
  | .prose _ _ | .docLine _ => .text

/-- What a line says goes with its class. -/
theorem lineClass_structural? {text : List Char} {item : Item}
    (h : structural? text = some item) : classify text = item.lineClass := by
  rw [structural?_eq_some_iff] at h
  cases item with
  | blank => exact h
  | prose words comment => exact absurd h not_false
  | docLine words => exact absurd h not_false
  | _ => exact h.1

end Item

end Reader

end Gherkin
