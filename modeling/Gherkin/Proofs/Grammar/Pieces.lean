import Gherkin.Proofs.Grammar.Scanned

/-!
# Text in Pieces

A text is scanned in pieces: a character that stands for itself, an escape,
or a quote up to the one that closes it. Where a piece ends, the next
character is neither escaped nor quoted. So a scan that has taken whole pieces
only, and stops in front of a comment sign, stops at a sign that really begins
a comment.

A text that has been scanned is printed in front of other blanks and of
another comment. What the scan takes does not depend on them, and so the text
is found again.

## Main definitions

* `LineGrammar.pieces`: Whole pieces of text.
* `LineGrammar.piecesFrom`: What is left of them, inside or outside a quote.

## Theorems

* `LineGrammar.scanText_pieces`: A scan takes whole pieces.
* `scanText_rescans`: A text is found again in front of any end of a line.
-/

namespace Gherkin

open scoped Computability

namespace LineGrammar

open Reader

/-- Whole pieces of text: behind them nothing is escaped and no quote is
    open. -/
def pieces : Language Char :=
  (letter IsPlain + escape + quoted)∗

/-- What is left of whole pieces, inside a quote or outside of one. -/
def piecesFrom : Bool → Language Char
  | false => pieces
  | true => (letter (fun c => c ≠ '"' ∧ c ≠ '\\') + escape)∗ * (char '"' * pieces)

theorem piecesFrom_false : piecesFrom false =
    1 + (letter IsPlain * piecesFrom false +
      char '\\' * (letter (fun _ => True) * piecesFrom false) + char '"' * piecesFrom true) := by
  have hquoted : quoted * pieces = char '"' * piecesFrom true := by
    unfold quoted
    rw [mul_assoc, mul_assoc]
    rfl
  -- The repetition is unrolled once; each piece begins with a letter of its own.
  rw [← escape_mul, ← hquoted]
  change pieces = 1 + (letter IsPlain * pieces + escape * pieces + _)
  rw [← add_mul, ← add_mul]
  exact (Language.one_add_self_mul_kstar_eq_kstar _).symm

theorem piecesFrom_true : piecesFrom true = char '"' * piecesFrom false +
    (letter (fun c => c ≠ '"' ∧ c ≠ '\\') * piecesFrom true +
      char '\\' * (letter (fun _ => True) * piecesFrom true)) := by
  rw [← escape_mul, ← add_mul]
  exact kstar_mul _ _

/-- No piece at all, outside of a quote. -/
theorem nil_mem_pieces : [] ∈ pieces :=
  Language.nil_mem_kstar _

/-- A character of whole pieces and what is left after it. -/
theorem cons_mem_piecesFrom (q : Bool) (c : Char) (rest : List Char) :
    c :: rest ∈ piecesFrom q ↔
      (c = '"' ∧ rest ∈ piecesFrom (!q)) ∨
        (c = '\\' ∧ rest ∈ letter (fun _ => True) * piecesFrom q) ∨
        (c ≠ '"' ∧ c ≠ '\\' ∧ (q = false → c ≠ '#') ∧ rest ∈ piecesFrom q) := by
  cases q with
  | false =>
      nth_rewrite 1 [piecesFrom_false]
      simp only [Language.mem_add, cons_notMem_one, char, cons_mem_letter_mul, IsPlain,
        Bool.not_false]
      tauto
  | true =>
      nth_rewrite 1 [piecesFrom_true]
      simp only [Language.mem_add, char, cons_mem_letter_mul, Bool.not_true]
      tauto

/-- A scan takes whole pieces, and nothing else. -/
theorem scanText_pieces (q : Bool) (cs text rest : List Char)
    (h : scanText q cs = .ok (text, rest)) :
    ∃ taken, cs = taken ++ rest ∧ taken ∈ piecesFrom q := by
  fun_induction scanText q cs generalizing text rest with
  | case1 =>
      cases h
      exact ⟨[], rfl, nil_mem_pieces⟩
  | case2 => exact absurd h (by simp only [reduceCtorEq, not_false_eq_true])
  | case3 => exact absurd h (by simp only [reduceCtorEq, not_false_eq_true])
  | case4 q c more ih =>
      rcases bind_eq_ok h with ⟨⟨inner, last⟩, hinner, heq⟩
      cases heq
      rcases ih inner rest hinner with ⟨taken, rfl, hmem⟩
      exact ⟨'\\' :: c :: taken, rfl, by simp [cons_mem_piecesFrom q '\\', hmem]⟩
  | case5 q more ih =>
      rcases bind_eq_ok h with ⟨⟨inner, last⟩, hinner, heq⟩
      cases heq
      rcases ih inner rest hinner with ⟨taken, rfl, hmem⟩
      exact ⟨'"' :: taken, rfl, by simp [cons_mem_piecesFrom q '"', hmem]⟩
  -- The comment sign is left, so nothing is taken.
  | case6 more =>
      cases h
      exact ⟨[], rfl, nil_mem_pieces⟩
  -- A blank that is dropped from the text has been taken all the same.
  | case7 q c more hlone hesc hquote hhash ih =>
      rcases bind_eq_ok h with ⟨⟨inner, last⟩, hinner, heq⟩
      simp only [Except.ok.injEq, Prod.mk.injEq] at heq
      rcases heq with ⟨-, rfl⟩
      rcases ih inner last hinner with ⟨taken, rfl, hmem⟩
      have hplain : c ≠ '\\' := by
        intro hc
        cases htaken : taken ++ last with
        | nil => exact hlone hc htaken
        | cons d ds => exact hesc d ds hc htaken
      refine ⟨c :: taken, rfl, (cons_mem_piecesFrom q c taken).mpr ?_⟩
      exact Or.inr (Or.inr ⟨hquote, hplain, hhash, hmem⟩)

end LineGrammar

open Reader LineGrammar

/-- Blanks, and perhaps a comment, end a line. -/
theorem atEnd_append {gap more : List Char} (hgap : ∀ c ∈ gap, Text.isBlank c = true)
    (hmore : more = [] ∨ ∃ remark, more = '#' :: remark) :
    AtEnd (gap ++ more) ∧ Text.skipBlanks (gap ++ more) = more := by
  have hskip : Text.skipBlanks (gap ++ more) = more := by
    rw [Text.skipBlanks_append gap more hgap]
    rcases hmore with rfl | ⟨remark, rfl⟩
    · rfl
    · exact Text.skipBlanks_cons '#' remark (by decide)
  refine ⟨?_, hskip⟩
  intro c rest hc
  rw [hskip] at hc
  rcases hmore with rfl | ⟨remark, rfl⟩
  · exact absurd hc (by simp)
  · exact (List.cons.inj hc).1.symm

/-- A scan stops behind whole pieces of text, at the end of the line or at the
    sign of a comment, and there the line ends without a fault. What it was
    given is the text, blanks, and what it leaves. In front of any other blanks
    and any other comment the same text is found, and the scan stops where they
    stop. -/
theorem scanText_rescans {cs text rest : List Char}
    (h : scanText false cs = .ok (text, rest)) :
    (∃ taken ∈ pieces, cs = taken ++ rest) ∧
      (rest = [] ∨ ∃ more, rest = '#' :: more) ∧
      (∃ remark, scanEnd rest = .ok remark) ∧
      (∃ gap, (∀ c ∈ gap, Text.isBlank c = true) ∧ cs = text ++ gap ++ rest) ∧
      ∀ gap more, (∀ c ∈ gap, Text.isBlank c = true) →
        (more = [] ∨ ∃ remark, more = '#' :: remark) →
        scanText false (text ++ (gap ++ more)) = .ok (text, more) := by
  rcases scanText_pieces false cs text rest h with ⟨taken, hcs, hmem⟩
  rcases scanText_spec false cs text rest h with ⟨hgap, hrest, hagain⟩
  refine ⟨⟨taken, hmem, hcs⟩, hrest, ?_, hgap, ?_⟩
  · exact (scanEnd_isOk_iff rest).mpr (@atEnd_append [] rest (by simp) hrest).1
  · intro gap more hblank hmore
    rcases atEnd_append hblank hmore with ⟨hend, hskip⟩
    rw [hagain (gap ++ more) hend, hskip]

/-- Texts that end in an escaped blank, in an escaped character of several
    bytes, and in a closed quote. Each was read in front of one end of a line,
    and is found again in front of a comment that holds every other sign. -/
theorem scanText_rescans_ends :
    (scanText false "foo \\    # c".toList = .ok ("foo \\ ".toList, "# c".toList) ∧
      scanText false "foo \\ \t#\"|\\".toList = .ok ("foo \\ ".toList, "#\"|\\".toList)) ∧
    (scanText false "a \\é \t".toList = .ok ("a \\é".toList, []) ∧
      scanText false "a \\é#\"|\\".toList = .ok ("a \\é".toList, "#\"|\\".toList)) ∧
    (scanText false "say \"#\\\"\" #".toList = .ok ("say \"#\\\"\"".toList, ['#']) ∧
      scanText false "say \"#\\\"\" #\"|\\".toList =
        .ok ("say \"#\\\"\"".toList, "#\"|\\".toList)) := by
  have hescaped : scanText false "foo \\    # c".toList = .ok ("foo \\ ".toList, "# c".toList) :=
    rfl
  have hmultibyte : scanText false "a \\é \t".toList = .ok ("a \\é".toList, []) := rfl
  have hquoted : scanText false "say \"#\\\"\" #".toList =
      .ok ("say \"#\\\"\"".toList, ['#']) := rfl
  refine ⟨⟨hescaped, ?_⟩, ⟨hmultibyte, ?_⟩, ⟨hquoted, ?_⟩⟩
  · exact (scanText_rescans hescaped).2.2.2.2 ['\t'] _ (by simp [Text.isBlank]) (Or.inr ⟨_, rfl⟩)
  · exact (scanText_rescans hmultibyte).2.2.2.2 [] _ (by simp) (Or.inr ⟨_, rfl⟩)
  · exact (scanText_rescans hquoted).2.2.2.2 [' '] _ (by simp [Text.isBlank]) (Or.inr ⟨_, rfl⟩)

end Gherkin
