import Gherkin.Proofs.Reader.Inversion

/-!
# How a Line Is Recorded

Every line of a document leaves its mark in the events: a blank line as such,
a comment as such, a heading, a step, a row or a fence as the event that opens
a part, a line of a doc string as its text. Only a line of the description and
a line of tags leave none, unless there is a comment on them: what they say is
found in an event of another line.

So a line can be entered in a ledger together with its *account*, that is what
it was taken for, and the events that end on it. `Records` says which events
these can be. All that is said later about a line and its events is read off
from there.

## Main definitions

* `Source.Line.holds`: An event ends on a line.
* `Account`: What a line was taken for.
* `EventKind.mark?`: The account that an event stands for.
* `Account.comment?`: The comment on a line.
* `Account.shows`: An event stands for a line.
* `Records`: The events that a line of an account is recorded by.

## Theorems

* `Records.mem_cases`: What an event can be that is recorded for a line.
* `Records.eq_of_mark`, `Records.countP_shows`: One event stands for a line,
  as its account says.
* `Records.comments`: The comment on a line is recorded once.
* `Records.close`: Parts may be closed on a line.
-/

namespace Gherkin

open Reader

/-- Whether an event ends on the line. -/
def Source.Line.holds (line : Source.Line) (event : Event) : Bool :=
  decide (line.start ≤ event.span.stop) && decide (event.span.stop ≤ line.stop)

theorem Source.Line.holds_iff {line : Source.Line} {event : Event} :
    line.holds event = true ↔ line.start ≤ event.span.stop ∧ event.span.stop ≤ line.stop := by
  simp [Source.Line.holds]

/-- An event that ends where the line does ends on it. -/
theorem Source.Line.holds_of_stop {line : Source.Line} {event : Event}
    (h : event.span.stop = line.stop) : line.holds event = true := by
  rw [holds_iff, h, stop]
  omega

open Source (Line)

/-- What a line was taken for: a blank line, a comment, the line that opens a
    part, a line of a doc string, its closing fence, a line of the description
    or a line of tags. -/
inductive Account where
  | blank
  | comment
  | opening
  | docLine
  | fence
  | description
  | tags
  deriving DecidableEq, Repr

namespace EventKind

/-- The account that an event stands for. Tables have no line of their own,
    and a comment at the end of a line does not stand for it. -/
def mark? : EventKind → Option Account
  | .blankLine => some .blank
  | .comment _ false => some .comment
  | .feature .. | .block .. | .step .. | .examples | .docString _ | .row => some .opening
  | .docLine _ => some .docLine
  | .docStringEnd => some .fence
  | _ => none

/-- Whether an event is a comment. -/
def isComment : EventKind → Bool
  | .comment .. => true
  | _ => false

end EventKind

/-- The comment on a line that says something. -/
def Reader.Item.remark? : Item → Option String
  | .blank | .docLine _ => none
  | .comment text => some text
  | .tags _ remark | .feature _ remark | .prose _ remark | .block _ _ remark
  | .step _ _ remark | .examples remark | .row _ remark | .fence _ remark => remark

namespace Account

/-- The comment on a line of an account. In the description a line is text
    whatever it begins with, and in a doc string there are no comments. -/
def comment? (account : Account) (line : Line) : Option String :=
  match account with
  | .docLine => none
  | .description => (Item.prose? line.text).bind Item.remark?
  | _ => (Item.structural? line.text).bind Item.remark?

/-- Whether a comment stands behind something that is reported itself. -/
def inline : Account → Bool
  | .opening | .fence => true
  | _ => false

/-- Whether an event stands for a line of an account. A blank line is reported
    as a whole, a comment from its sign on, a line of a doc string up to its
    end; the events that open a part end on its line, and so does the one that
    closes a doc string. -/
def shows (account : Account) (line : Line) (event : Event) : Bool :=
  decide (event.kind.mark? = some account) &&
    match account with
    | .blank => decide (event.span = ⟨line.start, line.stop⟩)
    | .comment => decide (event.span = ⟨line.contentStart, line.stop⟩)
    | .docLine => decide (event.span.stop = line.stop)
    | _ => line.holds event

theorem mark_of_shows {account : Account} {line : Line} {event : Event}
    (h : account.shows line event = true) : event.kind.mark? = some account := by
  simp only [shows, Bool.and_eq_true, decide_eq_true_eq] at h
  exact h.1

theorem holds_of_shows {account : Account} {line : Line} {event : Event}
    (h : account.shows line event = true) : line.holds event = true := by
  unfold shows at h
  rw [Bool.and_eq_true] at h
  rcases h with ⟨-, h⟩
  split at h
  · exact Line.holds_of_stop (by rw [of_decide_eq_true h])
  · exact Line.holds_of_stop (by rw [of_decide_eq_true h])
  · exact Line.holds_of_stop (of_decide_eq_true h)
  · exact h

end Account

/-- An event that ends on the line without standing for it. -/
def Source.Line.Minor (line : Line) (event : Event) : Prop :=
  event.kind.mark? = none ∧ event.kind.isComment = false ∧ line.holds event = true

/-- The events that a line of an account is recorded by. -/
inductive Records (line : Line) : Account → List Event → Prop
  | blank (hclass : classify line.text = .blank) : Records line .blank [line.blankEvent]
  | comment (remark : Remark) (hclass : classify line.text = .comment)
      (hend : scanEnd line.text = .ok (some remark)) :
      Records line .comment [line.commentEvent false remark]
  | tags (names : List String) (remark : Option Remark) (hclass : classify line.text = .tags)
      (hscan : scanTags line.text = .ok (names, remark)) :
      Records line .tags (line.sideEvents remark)
  | description (text rest : List Char) (remark : Option Remark)
      (hclass : classify line.text ≠ .comment ∧ classify line.text ≠ .tags)
      (htext : scanText false line.content = .ok (text, rest))
      (hend : scanEnd rest = .ok remark) :
      Records line .description (line.sideEvents remark)
  | docLine (text : String) (span : Span) (hstop : span.stop = line.stop) :
      Records line .docLine [⟨.docLine text, span⟩]
  -- A table may be opened before, cells stand in between, and parts are closed after.
  | opening (opener : Event) (before between after : List Event) (remark : Option Remark)
      (hclass : classify line.text ≠ .tags)
      (hcomment : (Item.structural? line.text).bind Item.remark? = remark.map Remark.comment)
      (hopener : opener.kind.mark? = some .opening) (hstop : opener.span.stop = line.stop)
      (hfeature : ∀ title description tags, opener.kind = .feature title description tags →
        classify line.text = .heading .feature)
      (hminor : ∀ event ∈ before ++ between ++ after, line.Minor event) :
      Records line .opening (before ++ opener :: between ++ line.inlineEvents remark ++ after)
  | fence (after : List Event) (remark : Option Remark) (hclass : classify line.text = .fence)
      (hcomment : (Item.structural? line.text).bind Item.remark? = remark.map Remark.comment)
      (hminor : ∀ event ∈ after, line.Minor event) :
      Records line .fence
        (line.inlineEvents remark ++ ⟨.docStringEnd, Span.point line.stop⟩ :: after)

section Remarks

variable {line : Line} {remark : Option Remark} {event : Event}

theorem mem_inlineEvents (h : event ∈ line.inlineEvents remark) :
    event.kind.mark? = none ∧ event.span.stop = line.stop := by
  cases remark with
  | none => exact absurd h (by simp [Source.Line.inlineEvents])
  | some r =>
      rw [List.mem_singleton.mp h]
      exact ⟨rfl, rfl⟩

theorem mem_sideEvents (h : event ∈ line.sideEvents remark) :
    event.kind.mark? = some .comment ∧ event.span.stop = line.stop := by
  cases remark with
  | none => exact absurd h (by simp [Source.Line.sideEvents])
  | some r =>
      rw [List.mem_singleton.mp h]
      exact ⟨rfl, rfl⟩

/-- The comment that a scan finds behind a text. -/
theorem phrase?_of_scan {cs text rest : List Char}
    (htext : scanText false cs = .ok (text, rest)) (hend : scanEnd rest = .ok remark) :
    phrase? cs = some (text, remark.map Remark.comment) := by
  simp [phrase?, ending?, htext, hend, Except.toOption]

theorem ending?_of_scan {cs : List Char} (hend : scanEnd cs = .ok remark) :
    ending? cs = some (remark.map Remark.comment) := by
  simp [ending?, hend, Except.toOption]

end Remarks

section Cells

/-- A cell is a piece of its row: its text begins where it is placed, and its
    place is one of the row. -/
theorem scanCells_place (seen cs : List Char) :
    ∀ cell ∈ (scanCells seen cs).1, cell.text <+: cell.place ∧
      cell.place <:+ seen.reverse ++ cs := by
  fun_induction scanCells seen cs with
  | case1 seen => simp
  | case2 seen rest cells tail heq ih =>
      rw [heq] at ih
      intro cell hcell
      rcases List.mem_cons.mp hcell with rfl | hcell
      · -- The cell is what was seen before the bar, trimmed at both ends.
        have hcontent : Text.skipBlanks seen.reverse <:+ seen.reverse :=
          List.dropWhile_suffix Text.isBlank
        have htext : Text.dropTrailing Text.isBlank (Text.skipBlanks seen.reverse) <+:
            Text.skipBlanks seen.reverse := by
          rw [Text.dropTrailing_eq_rdropWhile]
          exact List.rdropWhile_prefix Text.isBlank _
        rcases hcontent with ⟨gap, hgap⟩
        refine ⟨htext.trans (List.prefix_append _ _), gap, ?_⟩
        rw [Cell.between, ← List.append_assoc, hgap]
      · rcases ih cell hcell with ⟨htext, hplace⟩
        refine ⟨htext, hplace.trans ⟨seen.reverse ++ ['|'], by simp⟩⟩
  | case3 seen c rest hbar ih => simpa using ih

theorem scanRowBody_place {cs : List Char} {cells : List Cell} {remark : Option Remark}
    (h : scanRowBody cs = .ok (cells, remark)) :
    ∀ cell ∈ cells, cell.text <+: cell.place ∧ cell.place <:+ cs := by
  rcases scanRowBody_eq_ok_iff.mp h with ⟨rfl, -, -⟩
  exact scanCells_place [] cs

/-- A cell of a row ends on the line of the row. -/
theorem holds_cellEvent {line : Line} {cell : Cell} (htext : cell.text <+: cell.place)
    (hplace : cell.place <:+ line.text) : line.holds (line.cellEvent cell) = true := by
  rcases htext with ⟨after, hafter⟩
  rcases hplace with ⟨before, hbefore⟩
  have hwidth : Text.width line.text =
      Text.width before + (Text.width cell.text + Text.width after) := by
    rw [← hbefore, ← hafter, Text.width_append, Text.width_append]
  have hcell : Text.width cell.place = Text.width cell.text + Text.width after := by
    rw [← hafter, Text.width_append]
  rw [Line.holds_iff]
  simp only [Line.cellEvent, Line.offsetOf, Line.stop, hwidth, hcell]
  omega

end Cells

namespace Records

variable {line : Line} {account : Account} {events : List Event} {event : Event}

/-- An event that is recorded ends on the line, and it has no mark, that of the
    account, or that of a comment on a line without a mark of its own. -/
theorem mem_cases (h : Records line account events) (hevent : event ∈ events) :
    line.holds event = true ∧
      (event.kind.mark? = none ∨
        (event.kind.mark? = some account ∧
          ∀ title description tags, event.kind = .feature title description tags →
            classify line.text = .heading .feature) ∨
        (event.kind.mark? = some .comment ∧ (account = .description ∨ account = .tags))) := by
  cases h with
  | blank hclass =>
      rw [List.mem_singleton.mp hevent]
      exact ⟨Line.holds_of_stop rfl, Or.inr (Or.inl ⟨rfl, by simp [Line.blankEvent]⟩)⟩
  | comment remark hclass hend =>
      rw [List.mem_singleton.mp hevent]
      exact ⟨Line.holds_of_stop rfl, Or.inr (Or.inl ⟨rfl, by simp [Line.commentEvent]⟩)⟩
  | tags names remark hclass hscan =>
      rcases mem_sideEvents hevent with ⟨hmark, hstop⟩
      exact ⟨Line.holds_of_stop hstop, Or.inr (Or.inr ⟨hmark, Or.inr rfl⟩)⟩
  | description text rest remark hclass htext hend =>
      rcases mem_sideEvents hevent with ⟨hmark, hstop⟩
      exact ⟨Line.holds_of_stop hstop, Or.inr (Or.inr ⟨hmark, Or.inl rfl⟩)⟩
  | docLine text span hstop =>
      rw [List.mem_singleton.mp hevent]
      exact ⟨Line.holds_of_stop hstop, Or.inr (Or.inl ⟨rfl, by simp⟩)⟩
  | opening opener before between after remark hclass hcomment hopener hstop hfeature hminor =>
      simp only [List.mem_append, List.mem_cons] at hevent hminor
      have hother : ∀ {e : Event}, line.Minor e → line.holds e = true ∧ e.kind.mark? = none :=
        fun hminor => ⟨hminor.2.2, hminor.1⟩
      rcases hevent with ((hbefore | rfl | hbetween) | hinline) | hafter
      · exact (hother (hminor event (Or.inl (Or.inl hbefore)))).imp_right Or.inl
      · exact ⟨Line.holds_of_stop hstop, Or.inr (Or.inl ⟨hopener, hfeature⟩)⟩
      · exact (hother (hminor event (Or.inl (Or.inr hbetween)))).imp_right Or.inl
      · rcases mem_inlineEvents hinline with ⟨hmark, hend⟩
        exact ⟨Line.holds_of_stop hend, Or.inl hmark⟩
      · exact (hother (hminor event (Or.inr hafter))).imp_right Or.inl
  | fence after remark hclass hcomment hminor =>
      rcases List.mem_append.mp hevent with hinline | hevent
      · rcases mem_inlineEvents hinline with ⟨hmark, hend⟩
        exact ⟨Line.holds_of_stop hend, Or.inl hmark⟩
      · rcases List.mem_cons.mp hevent with rfl | hafter
        · exact ⟨Line.holds_of_stop rfl, Or.inr (Or.inl ⟨rfl, by simp⟩)⟩
        · exact ⟨(hminor event hafter).2.2, Or.inl (hminor event hafter).1⟩

/-- Events are recorded on the line where they end. -/
theorem holds (h : Records line account events) (hevent : event ∈ events) :
    line.holds event = true :=
  (h.mem_cases hevent).1

/-- A mark on a line is that of its account, or that of a comment on a line
    that has no mark of its own. -/
theorem eq_of_mark {mark : Account} (h : Records line account events) (hevent : event ∈ events)
    (hmark : event.kind.mark? = some mark) :
    mark = account ∨ mark = .comment ∧ (account = .description ∨ account = .tags) := by
  rcases (h.mem_cases hevent).2 with hnone | ⟨hown, -⟩ | ⟨hcomment, haccount⟩
  · simp [hnone] at hmark
  · rw [hown, Option.some.injEq] at hmark
    exact Or.inl hmark.symm
  · rw [hcomment, Option.some.injEq] at hmark
    exact Or.inr ⟨hmark.symm, haccount⟩

/-- Only the line that opens the feature tells of it. -/
theorem opening_of_feature {title description : String} {tags : List String}
    (h : Records line account events) (hevent : event ∈ events)
    (hkind : event.kind = .feature title description tags) :
    account = .opening ∧ classify line.text = .heading .feature := by
  have hmark : event.kind.mark? = some .opening := by rw [hkind]; rfl
  rcases (h.mem_cases hevent).2 with hnone | ⟨hown, hfeature⟩ | ⟨hcomment, -⟩
  · simp [hnone] at hmark
  · rw [hown, Option.some.injEq] at hmark
    exact ⟨hmark, hfeature title description tags hkind⟩
  · simp [hcomment] at hmark

/-- Events without marks stand for no line. -/
theorem countP_eq_zero {mark : Account} (h : ∀ event ∈ events, event.kind.mark? = none) :
    events.countP (mark.shows line) = 0 := by
  refine List.countP_eq_zero.mpr (fun event hevent hshows => ?_)
  have hmark := Account.mark_of_shows hshows
  rw [h event hevent] at hmark
  exact absurd hmark (by simp)

/-- One event stands for a line, unless it is one of the description or of
    tags. -/
theorem countP_shows (h : Records line account events) (hdescription : account ≠ .description)
    (htags : account ≠ .tags) : events.countP (account.shows line) = 1 := by
  have hinline : ∀ (mark : Account) (remark : Option Remark),
      (line.inlineEvents remark).countP (mark.shows line) = 0 :=
    fun _ _ => countP_eq_zero (fun event hevent => (mem_inlineEvents hevent).1)
  cases h with
  | blank hclass => simp [Account.shows, Line.blankEvent, EventKind.mark?]
  | comment remark hclass hend =>
      have hplace : remark.place = line.content := by
        unfold scanEnd at hend
        split at hend <;> simp_all [Line.content]
        exact hend ▸ rfl
      simp [Account.shows, Line.commentEvent, EventKind.mark?, Line.contentStart, hplace]
  | tags names remark hclass hscan => exact absurd rfl htags
  | description text rest remark hclass htext hend => exact absurd rfl hdescription
  | docLine text span hstop => simp [Account.shows, EventKind.mark?, hstop]
  | opening opener before between after remark hclass hcomment hopener hstop hfeature hminor =>
      have hshown : Account.opening.shows line opener = true := by
        simp [Account.shows, hopener, Line.holds_of_stop hstop]
      -- Nothing but the opening event has a mark.
      have hbefore : before.countP (Account.opening.shows line) = 0 :=
        countP_eq_zero (fun event hevent => (hminor event (by simp [hevent])).1)
      have hbetween : between.countP (Account.opening.shows line) = 0 :=
        countP_eq_zero (fun event hevent => (hminor event (by simp [hevent])).1)
      have hafter : after.countP (Account.opening.shows line) = 0 :=
        countP_eq_zero (fun event hevent => (hminor event (by simp [hevent])).1)
      simp [List.countP_append, hbefore, hbetween, hafter, hinline, hshown]
  | fence after remark hclass hcomment hminor =>
      have hafter : after.countP (Account.fence.shows line) = 0 :=
        countP_eq_zero (fun event hevent => (hminor event hevent).1)
      have hshown : Account.fence.shows line ⟨.docStringEnd, Span.point line.stop⟩ = true := by
        simp [Account.shows, EventKind.mark?, Line.holds_of_stop, Span.point]
      simp [List.countP_append, hafter, hinline, hshown]

theorem filter_minor (h : ∀ event ∈ events, line.Minor event) :
    events.filter (fun event => event.kind.isComment) = [] := by
  refine List.filter_eq_nil_iff.mpr (fun event hevent => ?_)
  rw [(h event hevent).2.1]
  decide

/-- The comment on a line is recorded once, if there is one. -/
theorem comments (h : Records line account events) :
    (events.filter (fun event => event.kind.isComment)).map Event.kind =
      (account.comment? line).toList.map (EventKind.comment · account.inline) := by
  have hside : ∀ remark, ((line.sideEvents remark).filter
      (fun event => event.kind.isComment)).map Event.kind =
        (remark.map Remark.comment).toList.map (EventKind.comment · false) := by
    intro remark
    cases remark <;> rfl
  have hinline : ∀ remark, ((line.inlineEvents remark).filter
      (fun event => event.kind.isComment)).map Event.kind =
        (remark.map Remark.comment).toList.map (EventKind.comment · true) := by
    intro remark
    cases remark <;> rfl
  cases h with
  | blank hclass =>
      have hitem : Item.structural? line.text = some .blank :=
        Item.structural?_eq_some_iff.mpr hclass
      simp [Account.comment?, hitem, Item.remark?, Line.blankEvent, EventKind.isComment]
  | comment remark hclass hend =>
      have hitem : Item.structural? line.text = some (.comment remark.comment) :=
        Item.structural?_eq_some_iff.mpr ⟨hclass, ending?_of_scan hend⟩
      simp [Account.comment?, hitem, Item.remark?, Line.commentEvent, EventKind.isComment,
        Account.inline, Remark.comment]
  | tags names remark hclass hscan =>
      have hitem : Item.structural? line.text = some (.tags names (remark.map Remark.comment)) :=
        Item.structural?_eq_some_iff.mpr ⟨hclass, remark, hscan, rfl⟩
      simp only [hside, Account.comment?, hitem, Option.bind_some, Item.remark?, Account.inline]
  | description text rest remark hclass htext hend =>
      have hitem : Item.prose? line.text =
          some (.prose (String.ofList text) (remark.map Remark.comment)) := by
        rw [Item.prose?, ← Line.content, phrase?_of_scan htext hend]
        rfl
      simp only [hside, Account.comment?, hitem, Option.bind_some, Item.remark?, Account.inline]
  | docLine text span hstop => rfl
  | opening opener before between after remark hclass hcomment hopener hstop hfeature hminor =>
      have hother : opener.kind.isComment = false := by
        by_contra hkind
        cases hcase : opener.kind <;> simp_all [EventKind.isComment]
        rename_i text inline
        cases inline <;> simp [EventKind.mark?] at hopener
      have hbefore := filter_minor (fun event (hevent : event ∈ before) =>
        hminor event (by simp [hevent]))
      have hbetween := filter_minor (fun event (hevent : event ∈ between) =>
        hminor event (by simp [hevent]))
      have hafter := filter_minor (fun event (hevent : event ∈ after) =>
        hminor event (by simp [hevent]))
      simp only [List.filter_append, List.filter_cons, hbefore, hbetween, hafter, hother,
        Bool.false_eq_true, if_false, List.nil_append, List.append_nil, hinline,
        Account.comment?, hcomment, Account.inline]
  | fence after remark hclass hcomment hminor =>
      have hother : EventKind.docStringEnd.isComment = false := rfl
      simp only [List.filter_append, List.filter_cons, hother, filter_minor hminor,
        Bool.false_eq_true, if_false, List.append_nil, hinline, Account.comment?, hcomment,
        Account.inline]

/-- A line that opens a part with one event. -/
theorem opener (kind : EventKind) (start : Nat) {remark : Option Remark} {item : Item}
    (hmark : kind.mark? = some .opening) (hclass : classify line.text ≠ .tags)
    (hfeature : ∀ title description tags, kind ≠ .feature title description tags)
    (hitem : Item.structural? line.text = some item)
    (hremark : item.remark? = remark.map Remark.comment) :
    Records line .opening (⟨kind, ⟨start, line.stop⟩⟩ :: line.inlineEvents remark) := by
  have hrecords := Records.opening ⟨kind, ⟨start, line.stop⟩⟩ [] [] [] remark hclass
    (by rw [hitem]; exact hremark) hmark rfl
    (fun title description tags hkind => absurd hkind (hfeature title description tags)) (by simp)
  simpa using hrecords

/-- A row, with or without the table that it opens. -/
theorem row {cells : List Cell} {remark : Option Remark} (before : List Event) (start : Nat)
    (hclass : classify line.text = .row)
    (hscan : scanRowBody (line.content.drop 1) = .ok (cells, remark))
    (hbefore : ∀ event ∈ before, event.kind = .table ∧ event.span.stop = line.stop) :
    Records line .opening (before ++
      (⟨.row, ⟨start, line.stop⟩⟩ :: cells.map line.cellEvent ++ line.inlineEvents remark ++
        [⟨.rowEnd, Span.point line.stop⟩])) := by
  have hitem : Item.structural? line.text = some (.row (cells.map fun cell =>
      String.ofList cell.text) (remark.map Remark.comment)) :=
    Item.structural?_eq_some_iff.mpr ⟨hclass, cells, remark, hscan, rfl, rfl⟩
  have hcontent : line.content.drop 1 <:+ line.text :=
    (List.drop_suffix 1 _).trans (List.dropWhile_suffix Text.isBlank)
  have hrecords := Records.opening ⟨.row, ⟨start, line.stop⟩⟩ before (cells.map line.cellEvent)
    [⟨.rowEnd, Span.point line.stop⟩] remark (by simp [hclass]) (by rw [hitem]; rfl) rfl rfl
    (by simp) ?_
  · simpa using hrecords
  · intro event hevent
    simp only [List.mem_append, List.mem_map, List.mem_singleton] at hevent
    rcases hevent with (hevent | ⟨cell, hcell, rfl⟩) | rfl
    · rcases hbefore event hevent with ⟨hkind, hstop⟩
      exact ⟨by rw [hkind]; rfl, by rw [hkind]; rfl, Line.holds_of_stop hstop⟩
    · rcases scanRowBody_place hscan cell hcell with ⟨htext, hplace⟩
      exact ⟨rfl, rfl, holds_cellEvent htext (hplace.trans hcontent)⟩
    · exact ⟨rfl, rfl, Line.holds_of_stop rfl⟩

/-- Parts that are open may be closed behind a line that opened or closed
    one. -/
theorem close {more : List Event} (h : Records line account events)
    (haccount : account = .opening ∨ account = .fence) (hmore : ∀ event ∈ more, line.Minor event) :
    Records line account (events ++ more) := by
  cases h with
  | opening opener before between after remark hclass hcomment hopener hstop hfeature hminor =>
      rw [List.append_assoc]
      refine .opening opener before between (after ++ more) remark hclass hcomment hopener hstop
        hfeature ?_
      intro event hevent
      rw [← List.append_assoc] at hevent
      rcases List.mem_append.mp hevent with hevent | hevent
      · exact hminor event hevent
      · exact hmore event hevent
  | fence after remark hclass hcomment hminor =>
      rw [List.append_assoc, List.cons_append]
      refine .fence (after ++ more) remark hclass hcomment ?_
      intro event hevent
      rcases List.mem_append.mp hevent with hevent | hevent
      · exact hminor event hevent
      · exact hmore event hevent
  | _ => simp at haccount

theorem eq_blankEvent (h : Records line .blank events) :
    classify line.text = .blank ∧ events = [line.blankEvent] := by
  cases h with
  | blank hclass => exact ⟨hclass, rfl⟩

theorem eq_commentEvent (h : Records line .comment events) :
    classify line.text = .comment ∧ ∃ remark, events = [line.commentEvent false remark] := by
  cases h with
  | comment remark hclass hend => exact ⟨hclass, remark, rfl⟩

theorem class_fence (h : Records line .fence events) : classify line.text = .fence := by
  cases h with
  | fence after remark hclass hcomment hminor => exact hclass

theorem class_tags (h : Records line .tags events) : classify line.text = .tags := by
  cases h with
  | tags names remark hclass hscan => exact hclass

/-- A line that looks like tags is one of tags or of a doc string. -/
theorem eq_of_class_tags (h : Records line account events) (hclass : classify line.text = .tags) :
    account = .tags ∨ account = .docLine := by
  cases h <;> simp_all

/-- A line that looks like a comment is not one of the description or of
    tags. -/
theorem ne_of_class_comment (h : Records line account events)
    (hclass : classify line.text = .comment) : account ≠ .description ∧ account ≠ .tags := by
  cases h <;> simp_all

end Records

end Gherkin
