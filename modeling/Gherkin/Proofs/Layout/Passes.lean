import Mathlib.Data.List.Forall2
import Mathlib.Data.List.SplitBy
import Gherkin.Proofs.Layout.Printed
import Gherkin.Proofs.Reader.Simulation

/-!
# Printed Lines Before the Reader

The lines of a page, read one after the other. A printed line says its item
whatever column its comment is put at, so reading a page never has to know
the columns: `Passes` follows the lines as they are, and `Passes.run` carries
what it says over to the rendered text.

## Main definitions

* `Passes`: Printed lines take the reader from one state to another.
* `TextsOf`: The texts of lines, each with its comment at some column.
* `beneath`: The reader behind the comments and tags above a part.

## Theorems

* `Passes.append`: Lines after lines.
* `Passes.unbroken`, `Passes.run`: The texts of lines that pass.
* `Page.render_texts`: A rendered page is the texts of its lines.
* `passes_comments`, `passes_beneath`: Comments and tags above a part.
-/

namespace Gherkin

namespace Layout

open Reader (Gist Place Stage Owner Item)

/-- Printed lines take the reader from one state to another, and yield
    events. -/
inductive Passes (options : Options) : Gist → List Line → List EventKind → Gist → Prop
  | nil (g : Gist) : Passes options g [] [] g
  | cons {g next last : Gist} {line : Line} {rest : List Line} {item : Item}
      {kinds more : List EventKind} (hsaid : line.Says options g.mode item)
      (htake : g.take item = some (kinds, next)) (hrest : Passes options next rest more last) :
      Passes options g (line :: rest) (kinds ++ more) last

section

variable {options : Options}

theorem Passes.single {g next : Gist} {line : Line} {item : Item} {kinds : List EventKind}
    (hsaid : line.Says options g.mode item) (htake : g.take item = some (kinds, next)) :
    Passes options g [line] kinds next := by
  have hpass := Passes.cons hsaid htake (Passes.nil next)
  rwa [List.append_nil] at hpass

theorem Passes.append {g mid last : Gist} {lines more : List Line} {kinds kinds' : List EventKind}
    (h : Passes options g lines kinds mid) (h' : Passes options mid more kinds' last) :
    Passes options g (lines ++ more) (kinds ++ kinds') last := by
  induction h with
  | nil => exact h'
  | cons hsaid htake _ ih =>
      rw [List.cons_append, List.append_assoc]
      exact .cons hsaid htake (ih h')

/-- The texts of printed lines, wherever their comments start. -/
def TextsOf (options : Options) (lines : List Line) (texts : List String) : Prop :=
  List.Forall₂ (fun line text => ∃ column, text = line.render column options) lines texts

/-- Printed lines hold no line breaks. -/
theorem Passes.unbroken {g last : Gist} {lines : List Line} {kinds : List EventKind}
    (h : Passes options g lines kinds last) {texts : List String}
    (ht : TextsOf options lines texts) : ∀ text ∈ texts, Source.Unbroken text.toList := by
  induction h generalizing texts with
  | nil g =>
      cases ht
      simp
  | cons hsaid _ _ ih =>
      cases ht with
      | cons hline hrest =>
          rcases hline with ⟨column, rfl⟩
          intro text htext
          rcases List.mem_cons.mp htext with rfl | hmem
          · exact hsaid.unbroken column
          · exact ih hrest text hmem

/-- Reading the texts of printed lines to the end. -/
theorem Passes.run {g last : Gist} {lines : List Line} {kinds : List EventKind}
    (h : Passes options g lines kinds last) {texts : List String}
    (ht : TextsOf options lines texts) :
    g.run (texts.map String.toList) = last.finish.map (kinds ++ ·) := by
  induction h generalizing texts with
  | nil g =>
      cases ht
      simp [Gist.run]
  | cons hsaid htake _ ih =>
      cases ht with
      | cons hline hrest =>
          -- The column does not matter, as the line says its item at any.
          rcases hline with ⟨column, rfl⟩
          rw [List.map_cons, Gist.run, Gist.step, hsaid.reads column, Option.bind_some, htake,
            Option.bind_some]
          dsimp only
          rw [ih hrest, Option.map_map]
          congr 1
          funext tail
          simp

/-- A printed page is its lines, each with some comment column and a line
    feed. -/
theorem Page.render_texts (options : Options) (page : Page) :
    ∃ texts, TextsOf options page.lines texts ∧
      page.render options = String.join (texts.map (· ++ "\n")) := by
  -- A run of lines shares one column, which is all that matters about runs here.
  have hruns : ∀ runs : List (List Line), ∃ texts, TextsOf options runs.flatten texts ∧
      String.join (runs.map (fun run => Page.renderRun run options)) =
        String.join (texts.map (· ++ "\n")) := by
    intro runs
    induction runs with
    | nil => exact ⟨[], .nil, rfl⟩
    | cons run rest ih =>
        rcases ih with ⟨texts, htexts, hjoin⟩
        refine ⟨run.map (·.render (Page.column run options) options) ++ texts, ?_, ?_⟩
        · refine List.rel_append ?_ htexts
          refine List.forall₂_map_right_iff.mpr ?_
          exact List.forall₂_same.mpr (fun line _ => ⟨_, rfl⟩)
        · rw [List.map_cons, String.join_cons, hjoin, List.map_append, String.join_append,
            List.map_map]
          rfl
  rcases hruns page.runs with ⟨texts, htexts, hjoin⟩
  rw [Page.runs, List.flatten_splitBy] at htexts
  exact ⟨texts, htexts, hjoin⟩

/-- Comments on lines of their own are held back. -/
theorem passes_comments (hcolor : options.color = false) (hskip : options.skipComments = false)
    (n : Nat) {texts : List String} (h : ∀ text ∈ texts, IsComment text) (g : Gist)
    (hm : ∀ indent, g.mode ≠ .verbatim indent) :
    Passes options g (commentLines options n texts) []
      (g.hold (texts.map (EventKind.comment · false))) := by
  simp only [commentLines, hskip, Bool.false_eq_true, if_false]
  induction texts generalizing g with
  | nil =>
      rw [List.map_nil, List.map_nil, Gist.hold_nil]
      exact .nil g
  | cons text rest ih =>
      have hsaid := says_comment hcolor hm n (h text List.mem_cons_self)
      have hrest := ih (fun t ht => h t (List.mem_cons_of_mem text ht))
        (g.hold [.comment text false]) (by rw [Gist.mode_hold]; exact hm)
      rw [Gist.hold_hold] at hrest
      exact .cons hsaid rfl hrest

/-- What the comments and the tags above a part do. -/
def beneath (g : Gist) (comments tags : List String) : List EventKind × Gist :=
  let held := g.hold (comments.map (EventKind.comment · false))
  if tags.isEmpty then ([], held) else (held.settle.1, held.settle.2.addTags tags)

/-- Comments are held back, and a line of tags ends what is open and lets its
    tags wait. -/
theorem passes_beneath (hcolor : options.color = false) (hskip : options.skipComments = false)
    (n : Nat) {comments tags : List String} (hc : ∀ text ∈ comments, IsComment text)
    (ht : ∀ tag ∈ tags, IsTag tag) (g : Gist) (hm : ∀ indent, g.mode ≠ .verbatim indent) :
    Passes options g (commentLines options n comments ++ tagLines n tags)
      (beneath g comments tags).1 (beneath g comments tags).2 := by
  have hcomments := passes_comments hcolor hskip n hc g hm
  unfold beneath tagLines
  -- Without tags there is no line for them.
  cases tags with
  | nil =>
      simp only [List.isEmpty_nil, if_true, List.append_nil]
      exact hcomments
  | cons tag rest =>
      simp only [List.isEmpty_cons, Bool.false_eq_true, if_false]
      refine hcomments.append (.single (says_tags hcolor ?_ n (by simp) ht) ?_)
      · rw [Gist.mode_hold]
        exact hm
      · simp [Gist.take, Reader.sideKinds]

end

end Layout

end Gherkin
