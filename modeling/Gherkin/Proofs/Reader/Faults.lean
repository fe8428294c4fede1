import Gherkin.Proofs.Reader.Inversion

/-!
# Where Faults Are Found

The reader looks at no line but the one it reads, so whatever it finds fault
with stands on that line. There is one exception, the tags that wait when the
examples of an outline come: they are at fault, and they stand further up.

What is missing is only found at the end of a document. These faults have
causes of their own, which no line can have.

## Main definitions

* `Cause.isAtEnd`: Something is missing at the end of a document.
* `Reader.Fails`: What can be said about every error of an outcome.
* `Reader.State.Blames`: The faults that a line can have.

## Theorems

* `Reader.scanText_fails`, `Reader.scanTags_fails`, `Reader.scanRow_fails`: A
  scan fails somewhere in what it scans.
* `Reader.State.step_fails`: The faults of a line.
* `Reader.State.finish_missed`, `Reader.State.finish_fails`: The faults of the
  end.
-/

namespace Gherkin

open Source (Line)

/-- Something is missing at the end of a document. -/
def Cause.isAtEnd : Cause → Bool
  | .expectedFeatureAfterTags | .expectedBlockAfterTags | .unterminatedDocString => true
  | _ => false

namespace Reader

/-- Every error of an outcome is such. -/
def Fails {ε α : Type} (P : ε → Prop) (result : Except ε α) : Prop :=
  ∀ e, result = .error e → P e

namespace Fails

variable {ε α β : Type} {P Q : ε → Prop}

theorem ok (a : α) : Fails P (.ok a) :=
  fun _ h => absurd h (by simp)

theorem error {e : ε} (h : P e) : Fails P (.error e : Except ε α) := by
  rintro _ ⟨⟩
  exact h

theorem mono {result : Except ε α} (h : Fails P result) (hPQ : ∀ e, P e → Q e) :
    Fails Q result :=
  fun e he => hPQ e (h e he)

/-- Of two steps, the first fails or the second one after it. -/
theorem bind {result : Except ε α} {next : α → Except ε β} (h : Fails P result)
    (hnext : ∀ a, result = .ok a → Fails P (next a)) : Fails P (result >>= next) := by
  intro e he
  cases result with
  | error e' =>
      cases he
      exact h e rfl
  | ok a => exact hnext a rfl e he

end Fails

/-- A scan that stops somewhere in what it scans. -/
def Stop.In (cs : List Char) (stop : Stop) : Prop :=
  stop.rest <:+ cs ∧ stop.cause.isAtEnd = false

section Scans

variable {cs ds : List Char}

/-- A scan of the rest of a line is one of the line. -/
theorem Fails.widen {α : Type} {result : Except Stop α} (h : Fails (Stop.In cs) result)
    (hsuffix : cs <:+ ds) : Fails (Stop.In ds) result :=
  h.mono fun _ hstop => ⟨hstop.1.trans hsuffix, hstop.2⟩

theorem scanText_fails (quoted : Bool) (cs : List Char) :
    Fails (Stop.In cs) (scanText quoted cs) := by
  fun_induction scanText quoted cs with
  | case1 => exact .ok _
  | case2 => exact .error ⟨List.nil_suffix, rfl⟩
  | case3 => exact .error ⟨List.suffix_rfl, rfl⟩
  | case4 quoted c rest ih =>
      have hsuffix : rest <:+ '\\' :: c :: rest :=
        (List.suffix_cons c rest).trans (List.suffix_cons _ _)
      exact (ih.widen hsuffix).bind fun _ _ => .ok _
  | case5 quoted rest ih =>
      exact (ih.widen (List.suffix_cons _ rest)).bind fun _ _ => .ok _
  | case6 => exact .ok _
  | case7 quoted c rest _ _ _ _ ih =>
      exact (ih.widen (List.suffix_cons _ rest)).bind fun _ _ => .ok _

theorem scanEnd_fails (cs : List Char) : Fails (Stop.In cs) (scanEnd cs) := by
  have hsuffix : Text.skipBlanks cs <:+ cs := List.dropWhile_suffix Text.isBlank
  unfold scanEnd
  split
  · exact .ok _
  · exact .ok _
  · exact .error ⟨hsuffix, rfl⟩

theorem scanTagsFrom_fails (inName : Bool) (cs : List Char) :
    Fails (Stop.In cs) (scanTagsFrom inName cs) := by
  fun_induction scanTagsFrom inName cs with
  | case1 => exact .ok _
  | case2 inName c rest hblank ih =>
      exact (ih.widen (List.suffix_cons c rest)).bind fun _ _ => .ok _
  | case3 inName c rest hblank hhash => exact (scanEnd_fails (c :: rest)).bind fun _ _ => .ok _
  | case4 inName c rest hblank hhash hname ih =>
      exact (ih.widen (List.suffix_cons c rest)).bind fun _ _ => .ok _
  | case5 inName c rest hblank hhash hname hsign hhead ih =>
      exact (ih.widen (List.suffix_cons c rest)).bind fun _ _ => .ok _
  | case6 inName c rest => exact .error ⟨List.suffix_cons c rest, rfl⟩
  | case7 => exact .error ⟨List.suffix_rfl, rfl⟩

theorem scanTags_fails (cs : List Char) : Fails (Stop.In cs) (scanTags cs) :=
  (scanTagsFrom_fails false cs).bind fun _ _ => .ok _

theorem scanRowBody_fails (cs : List Char) : Fails (Stop.In cs) (scanRowBody cs) := by
  have htail : Text.skipBlanks (scanCells [] cs).2 <:+ cs :=
    (List.dropWhile_suffix Text.isBlank).trans (scanCells_tail_suffix [] cs)
  unfold scanRowBody
  simp only
  split
  · exact .error ⟨htail, rfl⟩
  · split
    · exact .ok _
    · exact ((scanEnd_fails _).widen (by assumption)).bind fun _ _ => .ok _
    · exact .error ⟨htail, rfl⟩

theorem scanRow_fails (cs : List Char) : Fails (Stop.In cs) (scanRow cs) := by
  have hcontent : Text.skipBlanks cs <:+ cs := List.dropWhile_suffix Text.isBlank
  unfold scanRow
  split
  · rename_i rest hrest
    rw [hrest] at hcontent
    exact (scanRowBody_fails rest).widen ((List.suffix_cons '|' rest).trans hcontent)
  · exact .error ⟨hcontent, rfl⟩

end Scans

/-- The faults that a line can have: they stand on the line, or they are those
    of the tags that wait. Nothing is missing yet. -/
def State.Blames (state : State) (line : Line) (fault : Fault) : Prop :=
  fault.cause.isAtEnd = false ∧
    ((∃ rest, rest <:+ line.text ∧ fault.offset = line.offsetOf rest) ∨
      ∃ group, state.tags = some group ∧ fault.offset = group.start)

namespace State

variable {state : State} {line : Line} {cs : List Char}

theorem refuse_fails {α : Type} {cause : Cause} (h : cause.isAtEnd = false) :
    Fails (state.Blames line) (line.refuse cause : Except Fault α) :=
  .error ⟨h, Or.inl ⟨line.content, line.content_suffix, rfl⟩⟩

theorem scan_fails {α : Type} {result : Except Stop α} (h : Fails (Stop.In cs) result)
    (hcs : cs <:+ line.text) : Fails (state.Blames line) (line.scan result) := by
  intro fault hfault
  cases result with
  | ok a => exact absurd hfault (by simp [Line.scan, Except.mapError])
  | error stop =>
      cases hfault
      rcases h stop rfl with ⟨hrest, hcause⟩
      exact ⟨hcause, Or.inl ⟨stop.rest, hrest.trans hcs, rfl⟩⟩

theorem afterKeyword_suffix (line : Line) (keyword : String) :
    line.afterKeyword keyword <:+ line.text :=
  (List.dropWhile_suffix Text.isBlank).trans ((List.drop_suffix _ _).trans line.content_suffix)

theorem readComment_fails : Fails (state.Blames line) (state.readComment line) :=
  (scan_fails (scanEnd_fails _) List.suffix_rfl).bind fun _ _ => .ok _

theorem readTags_fails : Fails (state.Blames line) (state.readTags line) :=
  (scan_fails (scanTags_fails _) List.suffix_rfl).bind fun _ _ => .ok _

/-- A text and the end of the line behind it, where what is made of the text may
    be refused. -/
theorem scanText_bind_fails {β : Type} (hcs : cs <:+ line.text)
    {next : List Char × List Char → Except Fault β}
    (hnext : ∀ text rest, rest <:+ line.text → Fails (state.Blames line) (next (text, rest))) :
    Fails (state.Blames line) (line.scan (scanText false cs) >>= next) := by
  refine (scan_fails (scanText_fails false cs) hcs).bind ?_
  rintro ⟨text, rest⟩ hscan
  cases htext : scanText false cs with
  | error stop => simp [htext, Line.scan, Except.mapError] at hscan
  | ok found =>
      rw [htext] at hscan
      cases hscan
      exact hnext text rest ((scanText_rest_suffix htext).trans hcs)

theorem readFeature_fails : Fails (state.Blames line) (state.readFeature line) := by
  have hafter := afterKeyword_suffix line Heading.feature.text
  refine scanText_bind_fails hafter fun title rest hrest => ?_
  simp only
  split
  · exact .error ⟨rfl, Or.inl ⟨_, hafter, rfl⟩⟩
  · exact (scan_fails (scanEnd_fails _) hrest).bind fun _ _ => .ok _

theorem readDescription_fails {opening : Opening} :
    Fails (state.Blames line) (state.readDescription line opening) :=
  scanText_bind_fails line.content_suffix fun _ _ hrest =>
    (scan_fails (scanEnd_fails _) hrest).bind fun _ _ => .ok _

theorem readBlock_fails {kind : BlockKind} :
    Fails (state.Blames line) (state.readBlock line kind) :=
  scanText_bind_fails (afterKeyword_suffix line _) fun _ _ hrest =>
    (scan_fails (scanEnd_fails _) hrest).bind fun _ _ => .ok _

theorem readBody_fails {cls : LineClass} :
    Fails (state.Blames line) (state.readBody line cls) := by
  unfold readBody
  split
  · split
    · exact refuse_fails rfl
    · split
      · exact refuse_fails rfl
      · exact readBlock_fails
  all_goals exact refuse_fails rfl

theorem readStep_fails {kind : BlockKind} {keyword : StepKeyword} :
    Fails (state.Blames line) (state.readStep line kind keyword) := by
  have hafter := afterKeyword_suffix line keyword.text
  refine scanText_bind_fails hafter fun text rest hrest => ?_
  simp only
  split
  · exact .error ⟨rfl, Or.inl ⟨_, hafter, rfl⟩⟩
  · exact (scan_fails (scanEnd_fails _) hrest).bind fun _ _ => .ok _

theorem readExamples_fails {kind : BlockKind} :
    Fails (state.Blames line) (state.readExamples line kind) := by
  unfold readExamples
  split
  · exact refuse_fails rfl
  · split
    -- The tags are at fault, and they stand above the line.
    · rename_i group htags
      exact .error ⟨rfl, Or.inr ⟨group, htags, rfl⟩⟩
    · exact (scan_fails (scanEnd_fails _)
        ((List.drop_suffix _ _).trans line.content_suffix)).bind fun _ _ => .ok _

theorem leaveFor_fails {kind : BlockKind} {place : Place} {cls : LineClass} :
    Fails (state.Blames line) (state.leaveFor line kind place cls) := by
  have hbody : Fails (state.Blames line) ((state.leave kind place).2.readBody line cls) :=
    readBody_fails
  exact hbody.bind fun _ _ => .ok _

theorem settleFor_fails {kind : BlockKind} {place : Place} {read : State → Outcome}
    (h : Fails (state.Blames line)
      (read { state with phase := .block kind (.between place.stage) })) :
    Fails (state.Blames line) (state.settleFor kind place read) :=
  h.bind fun _ _ => .ok _

theorem readInBlock_fails {kind : BlockKind} {place : Place} {cls : LineClass} :
    Fails (state.Blames line) (state.readInBlock line kind place cls) := by
  unfold readInBlock readInSteps readAfterExamples
  split
  · split
    · exact settleFor_fails readStep_fails
    · exact settleFor_fails readExamples_fails
    · exact leaveFor_fails
    all_goals exact refuse_fails rfl
  · split
    · exact refuse_fails rfl
    · exact refuse_fails rfl
    · exact leaveFor_fails

theorem readRow_fails {kind : BlockKind} {owner : Owner} {columns : Option Nat} :
    Fails (state.Blames line) (state.readRow line kind owner columns) := by
  refine (scan_fails (scanRow_fails line.text) List.suffix_rfl).bind fun _ _ => ?_
  simp only
  split
  · exact .ok _
  · split
    · exact .ok _
    · exact refuse_fails rfl

theorem readFence_fails {kind : BlockKind} :
    Fails (state.Blames line) (state.readFence line kind) := by
  have hrest : Text.skipBlanks (line.content.drop fence.length) <:+ line.text :=
    (List.dropWhile_suffix Text.isBlank).trans ((List.drop_suffix _ _).trans line.content_suffix)
  unfold readFence
  split
  · exact .ok _
  · exact .error ⟨rfl, Or.inl ⟨_, hrest, rfl⟩⟩

theorem readDocLine_fails {kind : BlockKind} {indent : Nat} :
    Fails (state.Blames line) (state.readDocLine line kind indent) := by
  unfold readDocLine
  split
  · exact (scan_fails (scanEnd_fails _)
      ((List.drop_suffix _ _).trans line.content_suffix)).bind fun _ _ => .ok _
  · exact .ok _

theorem readLine_fails : Fails (state.Blames line) (state.readLine line) := by
  unfold readLine
  split
  · exact .ok _
  · exact readComment_fails
  · split
    · split
      · exact settleFor_fails readTags_fails
      · exact readRow_fails
      · exact readRow_fails
      · exact readFence_fails
      · exact readInBlock_fails
    · split
      · exact readTags_fails
      · exact readBody_fails
    · split
      · exact readTags_fails
      · exact readFeature_fails
      · exact refuse_fails rfl

theorem readOpening_fails {opening : Opening} :
    Fails (state.Blames line) (state.readOpening line opening) := by
  have hline : Fails (state.Blames line) ((state.announce opening).2.readLine line) :=
    readLine_fails
  unfold readOpening
  split
  · exact hline.bind fun _ _ => .ok _
  · exact hline.bind fun _ _ => .ok _
  · exact .ok _
  · exact (scan_fails (scanEnd_fails _) List.suffix_rfl).bind fun _ _ => .ok _
  · exact readDescription_fails

/-- The faults of a line. -/
theorem step_fails : Fails (state.Blames line) (state.step line) := by
  unfold step
  split
  · exact readOpening_fails
  · exact readDocLine_fails
  · exact readLine_fails

theorem finishBody_missed {stop : Nat} :
    Fails (fun fault => fault.cause.isAtEnd = true ∧ fault.offset = stop)
      (state.finishBody stop) := by
  unfold finishBody
  split
  · exact .error ⟨rfl, rfl⟩
  · exact .ok _

/-- What is missing at the end is found missing there. -/
theorem finish_missed {stop : Nat} :
    Fails (fun fault => fault.cause.isAtEnd = true ∧ fault.offset = stop) (state.finish stop) := by
  unfold finish
  split
  · split
    · exact .error ⟨rfl, rfl⟩
    · exact .ok _
  · exact finishBody_missed.bind fun _ _ => .ok _
  · exact finishBody_missed
  · exact .error ⟨rfl, rfl⟩
  · exact finishBody_missed.bind fun _ _ => .ok _

/-- The faults of the end. -/
theorem finish_fails {stop : Nat} :
    Fails (fun fault => fault.cause.isAtEnd = true) (state.finish stop) :=
  finish_missed.mono fun _ hfault => hfault.1

end State

end Reader

end Gherkin
