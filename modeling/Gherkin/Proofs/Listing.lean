import Gherkin.Proofs.Depth
import Gherkin.Proofs.Tagging
import Gherkin.Proofs.Text.Cutting

/-!
# Listings of Events

A listing says one thing a line and shows by indentation what is inside what.
Both are promises about all of a document. A line for each event means that no
event says anything with a line break in it, although a description can have
several lines and tags are shown as they are: everything else is quoted, and
tags come from the words of a line. Indentation is kept up event by event, and
`depthAt_foldl` says that this is the number of parts around.

## Main definitions

* `Event.lineAt`: The line of an event, when so many parts are open before it.
* `Event.linesFrom`: The lines of a listing.

## Theorems

* `Text.newline_notMem_quote`: A quoted text is on one line.
* `Tagging.Collects.newline_notMem`: So is a tag.
* `splitOn_listing`: The lines of a listing, one for each event.
* `readEvents_listing`: The listing of a document.
-/

namespace Gherkin

open Source (Line)

section Quoted

theorem newline_notMem_toDigits {b : Nat} (hb : 1 < b) (n : Nat) : '\n' ∉ Nat.toDigits b n := by
  induction n using Nat.strong_induction_on with
  | _ n ih =>
  rw [Nat.toDigits_eq_if hb]
  split_ifs with hsmall
  · simp
  · have hless : n / b < n := Nat.div_lt_self (by omega) hb
    simp [ih (n / b) hless]

theorem Text.newline_notMem_escape (c : Char) : '\n' ∉ Text.escape c := by
  by_cases hline : '\n' = c
  · subst hline
    decide
  · have hnumber := newline_notMem_toDigits (b := 16) (by decide) c.toNat
    unfold Text.escape Text.numberEscape
    split_ifs <;> simp [hline, hnumber]

theorem Text.newline_notMem_quote (text : String) : '\n' ∉ (Text.quote text).toList := by
  simp [Text.quote, newline_notMem_escape]

end Quoted

section Tags

theorem mem_of_mem_splitOnP {α : Type} {p : α → Bool} {as piece : List α} {a : α}
    (hpiece : piece ∈ as.splitOnP p) (ha : a ∈ piece) : a ∈ as := by
  induction as generalizing piece with
  | nil => simp_all
  | cons b rest ih =>
      rw [List.splitOnP_cons_eq_if_modifyHead] at hpiece
      split_ifs at hpiece with hb
      · rcases List.mem_cons.mp hpiece with rfl | hmem
        · exact absurd ha List.not_mem_nil
        · exact List.mem_cons_of_mem b (ih hmem ha)
      · -- The element belongs to the first piece, if there is one.
        cases hsplit : rest.splitOnP p with
        | nil => exact absurd hsplit (List.splitOnP_ne_nil p rest)
        | cons first more =>
            rw [hsplit] at hpiece ih
            rcases List.mem_cons.mp hpiece with rfl | hmem
            · rcases List.mem_cons.mp ha with rfl | hfirst
              · exact List.mem_cons_self
              · exact List.mem_cons_of_mem b (ih List.mem_cons_self hfirst)
            · exact List.mem_cons_of_mem b (ih (List.mem_cons_of_mem first hmem) ha)

theorem Source.Line.mem_of_mem_words {line : Line} {word : List Char} {c : Char}
    (hword : word ∈ line.words) (hc : c ∈ word) : c ∈ line.text :=
  List.takeWhile_subset _ (mem_of_mem_splitOnP (List.mem_of_mem_filter hword) hc)

/-- A tag is a word of a line. -/
theorem Tagging.Collects.newline_notMem {tagging : Tagging} {lines above : List Line}
    (h : tagging.Collects lines above) (hlines : ∀ line ∈ lines, Source.Unbroken line.text)
    {tag : String} (htag : tag ∈ tagging.tags) : '\n' ∉ tag.toList := by
  rcases h with ⟨⟨heading, below, rfl, -, -⟩, hwords⟩
  have hsigned : signed tag ∈ (tagLinesAbove above).flatMap Line.words := by
    rw [← hwords]
    exact List.mem_map_of_mem htag
  rcases List.mem_flatMap.mp hsigned with ⟨line, hline, hword⟩
  have habove := mem_above_of_mem_tagLinesAbove hline
  intro hmem
  have htext := line.mem_of_mem_words hword (List.mem_cons_of_mem '@' hmem)
  exact (hlines line (List.mem_append_left _ habove) '\n' htext).1 rfl

end Tags

section Lines

theorem EventKind.newline_notMem_name (kind : EventKind) : '\n' ∉ kind.name.toList := by
  cases kind with
  | block kind title tags => cases kind <;> simp [name, BlockKind.eventName]
  | blockEnd kind => cases kind <;> simp [name, BlockKind.eventName]
  | _ => simp [name]

theorem EventKind.newline_notMem_describeTags {tags : List String}
    (h : ∀ tag ∈ tags, '\n' ∉ tag.toList) : '\n' ∉ (describeTags tags).toList := by
  simpa [describeTags, String.toList_join] using h

/-- An event says nothing with a line break in it if its tags have none. -/
theorem Event.newline_notMem_describe {event : Event}
    (h : ∀ tagging, event.tagging? = some tagging → ∀ tag ∈ tagging.tags, '\n' ∉ tag.toList) :
    '\n' ∉ event.describe.toList := by
  have hdetails : '\n' ∉ event.kind.details.toList := by
    cases event with
    | mk kind span =>
        cases kind with
        | feature title description tags =>
            have htags := EventKind.newline_notMem_describeTags (h _ rfl)
            by_cases hempty : description.isEmpty = true <;>
              simp [EventKind.details, Text.newline_notMem_quote, htags, hempty]
        | block kind title tags =>
            have htags := EventKind.newline_notMem_describeTags (h _ rfl)
            simp [EventKind.details, Text.newline_notMem_quote, htags]
        | step keyword text tags =>
            have htags := EventKind.newline_notMem_describeTags (h _ rfl)
            cases keyword <;>
              simp [EventKind.details, StepKeyword.text, Text.newline_notMem_quote, htags]
        | comment text inline =>
            cases inline <;> simp [EventKind.details, Text.newline_notMem_quote]
        | _ =>
            simp [EventKind.details, Text.newline_notMem_quote, newline_notMem_toDigits]
  simp [Event.describe, EventKind.describe, EventKind.newline_notMem_name, hdetails,
    newline_notMem_toDigits]

namespace Event

/-- The line of an event, when so many parts are open before it. -/
def lineAt (depth : Nat) (event : Event) : List Char :=
  List.replicate (2 * event.depthAt depth) ' ' ++ event.describe.toList

/-- The lines of events, when so many parts are open before them. -/
def linesFrom (depth : Nat) : List Event → List (List Char)
  | [] => []
  | event :: rest => event.lineAt depth :: linesFrom (event.depthAfter depth) rest

theorem toList_listingFrom (depth : Nat) (events : List Event) :
    (String.join (listingFrom depth events)).toList =
      (linesFrom depth events).flatMap (· ++ ['\n']) := by
  induction events generalizing depth with
  | nil => rfl
  | cons event rest ih =>
      have hrest := ih (event.depthAfter depth)
      rw [String.toList_join] at hrest
      simp [listingFrom, linesFrom, lineAt, String.toList_join, hrest]

theorem length_linesFrom (depth : Nat) (events : List Event) :
    (linesFrom depth events).length = events.length := by
  induction events generalizing depth with
  | nil => rfl
  | cons event rest ih => rw [linesFrom, List.length_cons, ih, List.length_cons]

theorem newline_notMem_linesFrom (depth : Nat) {events : List Event}
    (h : ∀ event ∈ events, '\n' ∉ event.describe.toList) :
    ∀ line ∈ linesFrom depth events, '\n' ∉ line := by
  induction events generalizing depth with
  | nil => exact fun line hline => absurd hline List.not_mem_nil
  | cons event rest ih =>
      rw [linesFrom, List.forall_mem_cons]
      refine ⟨?_, ih _ (fun other hother => h other (List.mem_cons_of_mem event hother))⟩
      simp [lineAt, h event List.mem_cons_self]

/-- The line of an event is at its place, with the depth that was kept up to
    there. -/
theorem getElem?_linesFrom (depth : Nat) (before : List Event) (event : Event)
    (behind : List Event) :
    (linesFrom depth (before ++ event :: behind))[before.length]? =
      some (event.lineAt (before.foldl depthAfter depth)) := by
  induction before generalizing depth with
  | nil => rfl
  | cons first rest ih =>
      rw [List.cons_append, linesFrom, List.length_cons, List.getElem?_cons_succ, ih,
        List.foldl_cons]

end Event

/-- The lines of a listing, one for each event. -/
theorem splitOn_listing {events : List Event}
    (h : ∀ event ∈ events, '\n' ∉ event.describe.toList) :
    (listing events).toList.splitOn '\n' = Event.linesFrom 0 events ++ [[]] ∧
      (listing events).toList.count '\n' = events.length := by
  have hlines : ∀ line ∈ Event.linesFrom 0 events ++ [[]], '\n' ∉ line := by
    rw [List.forall_mem_append]
    exact ⟨Event.newline_notMem_linesFrom 0 h, by simp⟩
  have htext : (listing events).toList =
      (Event.linesFrom 0 events).flatMap (· ++ ['\n']) ++ [] := by
    rw [listing, Event.toList_listingFrom, List.append_nil]
  rw [htext, Text.splitOn_closed hlines, Text.count_closed hlines, Event.length_linesFrom]
  exact ⟨rfl, rfl⟩

end Lines

section Documents

variable {source : String} {events : List Event}

/-- The events of a document are in turn. -/
theorem balanced_of_readEvents (h : readEvents source = .ok events) :
    Balanced (events.map Event.kind) := by
  refine Balanced.of_withoutBlanks ?_
  rcases readFeature_of_events h with ⟨t, -, -, hkinds⟩ | ⟨htrivia, -⟩
  · rw [← hkinds]
    exact t.balanced
  · rcases htrivia.comments with ⟨texts, htexts, -⟩
    rw [htexts]
    exact .comments texts false

/-- No event of a document says anything with a line break in it. -/
theorem newline_notMem_of_readEvents (h : readEvents source = .ok events) :
    ∀ event ∈ events, '\n' ∉ event.describe.toList := by
  have htags : TagsAttached (Source.lines source) events :=
    Gathered.initial.run (Line.follow_split 0 source.toList).pairwise (readEvents_eq_ok h)
  have hlines : ∀ line ∈ Source.lines source, Source.Unbroken line.text :=
    fun line hline => Source.unbroken_lines source _ (List.mem_map_of_mem hline)
  intro event hevent
  refine Event.newline_notMem_describe (fun tagging htagging tag htag => ?_)
  rcases htags.collected event hevent tagging htagging with ⟨above, hcollects⟩
  exact hcollects.newline_notMem hlines htag

end Documents

/-- The listing of a document has one line for each event: what the event says,
    behind two spaces for each part that is open around it. The depth that is
    kept for this is never taken below zero, since every closing event has an
    opening one, inside of the same parts; and it is zero in the end. -/
theorem readEvents_listing {source : String} {events : List Event}
    (h : readEvents source = .ok events) :
    (listing events).toList.count '\n' = events.length ∧
      (∀ i event, events[i]? = some event →
        ((listing events).toList.splitOn '\n')[i]? =
            some (List.replicate (2 * (around (events.map Event.kind) i).ncard) ' ' ++
              event.describe.toList) ∧
          (event.kind.isCloser = true → 0 < (events.take i).foldl Event.depthAfter 0 ∧
            ∃ j, Pairs (events.map Event.kind) j i ∧
              around (events.map Event.kind) i = around (events.map Event.kind) j)) ∧
      events.foldl Event.depthAfter 0 = 0 := by
  have hturn : unclosed [] (events.map Event.kind) = some [] := balanced_of_readEvents h []
  rcases splitOn_listing (newline_notMem_of_readEvents h) with ⟨hlines, hcount⟩
  refine ⟨hcount, ?_, foldl_depthAfter hturn⟩
  intro i event hi
  obtain ⟨before, behind, rfl, rfl⟩ :
      ∃ before behind, events = before ++ event :: behind ∧ before.length = i := by
    rcases List.getElem?_eq_some_iff.mp hi with ⟨hlt, rfl⟩
    refine ⟨events.take i, events.drop (i + 1), ?_, List.length_take_of_le hlt.le⟩
    rw [← List.drop_eq_getElem_cons hlt, List.take_append_drop]
  rcases depthAt_foldl hturn with ⟨hdepth, hpositive⟩
  refine ⟨?_, fun hcloses => ⟨?_, ?_⟩⟩
  · rw [hlines, List.getElem?_append_left (by simp [Event.length_linesFrom]),
      Event.getElem?_linesFrom, Event.lineAt, hdepth]
  · rw [List.take_left]
    exact hpositive hcloses
  · rw [List.map_append, List.map_cons] at hturn ⊢
    rcases exists_pairs hturn hcloses with ⟨j, hpairs⟩
    rw [List.length_map] at hpairs
    exact ⟨j, hpairs, hpairs.around_eq hturn⟩

/-- A document with a tag, with a description of two lines and with a quote in
    a cell. -/
def listedSample : String :=
  "@a\nFeature: f\n1\n2\nScenario: # \nGiven x\n| \" |\n"

/-- Its listing. -/
def sampleListing : String :=
  "Feature \"f\" @a description=\"1\\n2\" @0..13\n" ++
  "  Scenario \"\" @18..30\n" ++
  "    Comment \"\" inline @28..30\n" ++
  "    Step Given \"x\" @31..38\n" ++
  "      Table @39..44\n" ++
  "        TableRow @39..44\n" ++
  "          TableCell \"\\\"\" @41..42\n" ++
  "        TableRowEnd @44..44\n" ++
  "      TableEnd @44..44\n" ++
  "    StepEnd @44..44\n" ++
  "  ScenarioEnd @44..44\n" ++
  "FeatureEnd @44..44\n"

/-- The sample is read, and this is its listing. -/
theorem readEvents_listing_sample : ∃ events, readEvents listedSample = .ok events ∧
    listing events = sampleListing ∧
    (listing events).toList.count '\n' = events.length ∧
    (∀ i event, events[i]? = some event → ((listing events).toList.splitOn '\n')[i]? =
      some (List.replicate (2 * (around (events.map Event.kind) i).ncard) ' ' ++
        event.describe.toList)) ∧
    events.foldl Event.depthAfter 0 = 0 := by
  have hread : ∃ events, readEvents listedSample = .ok events ∧
      decide (listing events = sampleListing) = true :=
    exists_readEvents (by decide +kernel)
  rcases hread with ⟨events, hread, hlisting⟩
  rcases readEvents_listing hread with ⟨hcount, hlines, hdepth⟩
  exact ⟨events, hread, of_decide_eq_true hlisting, hcount,
    fun i event hi => (hlines i event hi).1, hdepth⟩

end Gherkin
