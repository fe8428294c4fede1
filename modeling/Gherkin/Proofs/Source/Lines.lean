import Gherkin.Source.Line

/-!
# Lines and Their Texts

Splitting a document removes every line break, and a document that is written
line by line, each line ended by a line feed, is split into the lines that
were written.

## Main definitions

* `Unbroken`: A list of characters without line breaks.
* `Ending.chars`: The characters of an ending.
* `Follow`: Lines that lie one behind the other.

## Theorems

* `unbroken_lines`: No line holds a line break.
* `follow_split`: The lines of a text lie one behind the other.
* `Follow.pairwise`: No line reaches into one behind it.
* `split_line`, `split_unended`: A text and an ending make one line, and so does
  a text at the end.
* `lines_ended`: The lines of a document that was written line by line.
-/

namespace Gherkin

namespace Source

/-- A list of characters without line breaks. -/
def Unbroken (cs : List Char) : Prop :=
  ∀ c ∈ cs, c ≠ '\n' ∧ c ≠ '\r'

theorem Unbroken.mono {cs ds : List Char} (h : Unbroken cs) (hsub : ∀ c ∈ ds, c ∈ cs) :
    Unbroken ds :=
  fun c hc => h c (hsub c hc)

theorem unbroken_nil : Unbroken [] := by
  intro c hc
  exact absurd hc (by simp)

theorem Unbroken.cons {c : Char} {cs : List Char} (hfeed : c ≠ '\n') (hreturn : c ≠ '\r')
    (h : Unbroken cs) : Unbroken (c :: cs) := by
  intro d hd
  rcases List.mem_cons.mp hd with rfl | hmem
  · exact ⟨hfeed, hreturn⟩
  · exact h d hmem

theorem Unbroken.append {cs ds : List Char} (hcs : Unbroken cs) (hds : Unbroken ds) :
    Unbroken (cs ++ ds) := by
  intro c hc
  rcases List.mem_append.mp hc with h | h
  · exact hcs c h
  · exact hds c h

theorem unbroken_replicate (n : Nat) : Unbroken (List.replicate n ' ') := by
  intro c hc
  rw [List.eq_of_mem_replicate hc]
  decide

/-- The characters of an ending. -/
def Ending.chars : Ending → List Char
  | .none => []
  | .lineFeed => ['\n']
  | .carriageReturn => ['\r']
  | .both => ['\r', '\n']

namespace Line

/-- Putting an ordinary character in front breaks no line. -/
theorem unbroken_extend {start : Nat} {c : Char} {lines : List Line} (hfeed : c ≠ '\n')
    (hreturn : c ≠ '\r') (h : ∀ line ∈ lines, Unbroken line.text) :
    ∀ line ∈ extend start c lines, Unbroken line.text := by
  cases lines with
  | nil =>
      intro line hline
      rw [List.mem_singleton.mp hline]
      exact unbroken_nil.cons hfeed hreturn
  | cons first rest =>
      intro line hline
      rcases List.mem_cons.mp hline with rfl | hmem
      · exact (h first List.mem_cons_self).cons hfeed hreturn
      · exact h line (List.mem_cons_of_mem first hmem)

theorem unbroken_split (start : Nat) (cs : List Char) :
    ∀ line ∈ split start cs, Unbroken line.text := by
  -- Each kind of line break starts a new line, so only the last case adds to one.
  fun_induction split start cs with
  | case1 => simp
  | case2 start rest ih =>
      intro line hline
      rcases List.mem_cons.mp hline with rfl | hmem
      · exact unbroken_nil
      · exact ih line hmem
  | case3 start rest ih =>
      intro line hline
      rcases List.mem_cons.mp hline with rfl | hmem
      · exact unbroken_nil
      · exact ih line hmem
  | case4 start rest hnot ih =>
      intro line hline
      rcases List.mem_cons.mp hline with rfl | hmem
      · exact unbroken_nil
      · exact ih line hmem
  | case5 start c rest hfeed hboth hreturn ih =>
      exact unbroken_extend (fun h => hfeed h) (fun h => hreturn h) ih

/-- Lines lie one behind the other: the first at `start`, each other where the
    one before it ends, and only the last may lack an ending. -/
def Follow (start : Nat) : List Line → Prop
  | [] => True
  | line :: rest =>
    line.start = start ∧ (rest ≠ [] → 0 < line.ending.width) ∧ Follow line.next rest

theorem follow_extend {start : Nat} {c : Char} {lines : List Line}
    (h : Follow (start + c.utf8Size) lines) : Follow start (extend start c lines) := by
  cases lines with
  | nil => exact ⟨rfl, by simp, trivial⟩
  | cons line rest =>
      rcases h with ⟨hstart, hending, hrest⟩
      -- The line begins earlier and is longer by as much, so it ends where it did.
      have hnext : next { line with start := start, text := c :: line.text } = line.next := by
        simp only [next, stop, Text.width_cons, hstart]
        omega
      exact ⟨rfl, hending, hnext ▸ hrest⟩

/-- The lines of a text lie one behind the other. -/
theorem follow_split (start : Nat) (cs : List Char) : Follow start (split start cs) := by
  fun_induction split start cs with
  | case1 => trivial
  | case2 start rest ih => exact ⟨rfl, fun _ => Nat.one_pos, ih⟩
  | case3 start rest ih => exact ⟨rfl, fun _ => Nat.two_pos, ih⟩
  | case4 start rest hnot ih => exact ⟨rfl, fun _ => Nat.one_pos, ih⟩
  | case5 start c rest hfeed hboth hreturn ih => exact follow_extend ih

theorem Follow.start_le {start : Nat} {lines : List Line} (h : Follow start lines) :
    ∀ line ∈ lines, start ≤ line.start := by
  induction lines generalizing start with
  | nil => simp
  | cons first rest ih =>
      rcases h with ⟨hstart, -, hrest⟩
      intro line hline
      rcases List.mem_cons.mp hline with rfl | hmem
      · omega
      · have hle := ih hrest line hmem
        simp only [next, stop] at hle
        omega

/-- No line reaches into one behind it. -/
theorem Follow.pairwise {start : Nat} {lines : List Line} (h : Follow start lines) :
    lines.Pairwise (fun line later => line.stop < later.start) := by
  induction lines generalizing start with
  | nil => exact List.Pairwise.nil
  | cons first rest ih =>
      rcases h with ⟨-, hending, hrest⟩
      refine List.pairwise_cons.mpr ⟨fun later hlater => ?_, ih hrest⟩
      have hle := hrest.start_le later hlater
      have hpos := hending (List.ne_nil_of_mem hlater)
      simp only [next] at hle
      omega

/-- An unbroken text and an ending make one line, unless what follows makes it
    another ending. -/
theorem split_line (start : Nat) {text rest : List Char} {ending : Ending} (htext : Unbroken text)
    (hending : ending ≠ .none) (hrest : ending = .carriageReturn → rest.head? ≠ some '\n') :
    split start (text ++ ending.chars ++ rest) =
      ⟨start, text, ending⟩ :: split (Line.mk start text ending).next rest := by
  induction text generalizing start with
  | nil =>
      cases ending with
      | none => exact absurd rfl hending
      | lineFeed => simp [Ending.chars, split, next, stop, Ending.width]
      | carriageReturn =>
          rw [List.nil_append, Ending.chars, List.singleton_append, split]
          · rfl
          · rintro more rfl
            exact hrest rfl rfl
      | both => simp [Ending.chars, split, next, stop, Ending.width]
  | cons c cs ih =>
      have hc := htext c List.mem_cons_self
      have hnext : (Line.mk (start + c.utf8Size) cs ending).next =
          (Line.mk start (c :: cs) ending).next := by
        simp only [next, stop, Text.width_cons]
        omega
      rw [List.cons_append, List.cons_append, split,
        ih (start + c.utf8Size) (htext.mono (fun d hd => List.mem_cons_of_mem c hd)), hnext, extend]
      · exact fun heq => hc.1 heq
      · intro _ heq
        exact absurd heq hc.2
      · exact fun heq => hc.2 heq

/-- An unbroken text by itself makes one line if it has a character. -/
theorem split_unended (start : Nat) {text : List Char} (htext : Unbroken text) (hne : text ≠ []) :
    split start text = [⟨start, text, .none⟩] := by
  induction text generalizing start with
  | nil => exact absurd rfl hne
  | cons c rest ih =>
      have hc := htext c List.mem_cons_self
      rw [split]
      · by_cases hrest : rest = []
        · rw [hrest]
          rfl
        · rw [ih (start + c.utf8Size) (htext.mono (fun d hd => List.mem_cons_of_mem c hd)) hrest]
          rfl
      · exact hc.1
      · exact fun _ heq => absurd heq hc.2
      · exact hc.2

/-- An unbroken text and a line feed make one line. -/
theorem split_ended (start : Nat) (text rest : List Char) (h : Unbroken text) :
    ∃ next, split start (text ++ '\n' :: rest) =
      ⟨start, text, .lineFeed⟩ :: split next rest := by
  have hline : split start (text ++ Ending.lineFeed.chars ++ rest) = _ :=
    split_line start h (by simp) (by simp)
  rw [Ending.chars, List.append_assoc, List.singleton_append] at hline
  exact ⟨_, hline⟩

end Line

/-- No line holds a line break. -/
theorem unbroken_lines (source : String) :
    ∀ text ∈ (lines source).map Line.text, Unbroken text := by
  intro text htext
  rcases List.mem_map.mp htext with ⟨line, hline, rfl⟩
  exact Line.unbroken_split 0 source.toList line hline

/-- A document that was written line by line is split into these lines. -/
theorem lines_ended (texts : List String) (h : ∀ text ∈ texts, Unbroken text.toList) :
    (lines (String.join (texts.map (· ++ "\n")))).map Line.text = texts.map String.toList := by
  have hsplit : ∀ start, (Line.split start
      (String.join (texts.map (· ++ "\n"))).toList).map Line.text = texts.map String.toList := by
    induction texts with
    | nil => intro start; rfl
    | cons text rest ih =>
        intro start
        have hrest := ih (fun t ht => h t (List.mem_cons_of_mem text ht))
        rcases Line.split_ended start text.toList (String.join (rest.map (· ++ "\n"))).toList
          (h text List.mem_cons_self) with ⟨next, hnext⟩
        have hchars : (String.join ((text :: rest).map (· ++ "\n"))).toList =
            text.toList ++ '\n' :: (String.join (rest.map (· ++ "\n"))).toList := by
          simp [String.toList_join]
        rw [hchars, hnext, List.map_cons, hrest next, List.map_cons]
  exact hsplit 0

end Source

end Gherkin
