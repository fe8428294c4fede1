import Mathlib.Data.List.Basic
import Gherkin.Json

/-!
# One Value for Each JSON Text

A value can be told from its text on one line, and even from a longer text that
only begins with it. Nothing in a string can be mistaken for its closing quote,
and nothing in an array or object for its comma or closing bracket, whatever
the strings in it look like.

Numbers are the exception that shapes everything below. A number goes on for as
long as there are digits, so it can be told from a longer text only when no
digit follows it. Inside a value none ever does: what follows a number there is
a comma or a bracket. `Tells` carries the condition on what may follow, and the
same lemma about a sequence that a sign closes then serves the characters of a
string, the items of an array and the members of an object.

## Main definitions

* `Tells`: Something can be told from a text that begins with it.
* `Json.unescape?`: The first character of what a string holds.
* `Json.shapeAt?`: The kind of the values that begin with a character.

## Theorems

* `tells_closed`: A sequence up to the sign that closes it.
* `Json.tells_separated`: What stands between commas, up to the bracket that
  closes it.
* `Json.tells_quote`, `Json.tells_num`, `Json.tells_compact`: Strings, numbers and
  values.
* `Json.compact_injective`: A text is that of one value only.
* `Json.newline_notMem_compact`: A value is written on one line.
-/

namespace Gherkin

section Sequences

variable {α : Type} {follows : List Char → Prop} {write : α → List Char} {close : Char}

/-- `a` can be told from every text that begins with how it is written, as long
    as what follows is allowed to follow. -/
def Tells (follows : List Char → Prop) (write : α → List Char) (a : α) : Prop :=
  ∀ b rest more, follows rest → follows more → write a ++ rest = write b ++ more →
    a = b ∧ rest = more

/-- In a sequence, what follows one thing is another or the closing sign. -/
theorem follows_flatMap (hclose : ∀ rest, follows (close :: rest))
    (hfollows : ∀ a rest, follows (write a ++ rest)) (items : List α) (rest : List Char) :
    follows (items.flatMap write ++ close :: rest) := by
  cases items with
  | nil => exact hclose rest
  | cons a as =>
      rw [List.flatMap_cons, List.append_assoc]
      exact hfollows a _

/-- A sequence can be told from the text up to the sign that closes it, if
    nothing in it begins with that sign. -/
theorem tells_closed (hclose : ∀ rest, follows (close :: rest))
    (hfollows : ∀ a rest, follows (write a ++ rest))
    (hbegins : ∀ a rest more, write a ++ rest ≠ close :: more)
    {items : List α} (hitems : ∀ a ∈ items, Tells follows write a)
    {others : List α} {rest more : List Char}
    (h : items.flatMap write ++ close :: rest = others.flatMap write ++ close :: more) :
    items = others ∧ rest = more := by
  induction items generalizing others with
  | nil =>
      cases others with
      | nil => exact ⟨rfl, (List.cons.inj h).2⟩
      | cons b bs =>
          rw [List.flatMap_cons, List.append_assoc] at h
          exact absurd h.symm (hbegins b _ rest)
  | cons a as ih =>
      rw [List.flatMap_cons, List.append_assoc] at h
      cases others with
      | nil => exact absurd h (hbegins a _ more)
      | cons b bs =>
          rw [List.flatMap_cons, List.append_assoc] at h
          have hnext := follows_flatMap hclose hfollows
          rcases hitems a (by simp) b _ _ (hnext as rest) (hnext bs more) h with ⟨rfl, htail⟩
          rcases ih (fun d hd => hitems d (List.mem_cons_of_mem a hd)) htail with ⟨rfl, hrest⟩
          exact ⟨rfl, hrest⟩

end Sequences

namespace Json

theorem sizeOf_member {members : List (String × Json)} {member : String × Json}
    (h : member ∈ members) : sizeOf member.2 < sizeOf members := by
  have hlt := List.sizeOf_lt_of_mem h
  have hpair : sizeOf member = 1 + sizeOf member.1 + sizeOf member.2 := by
    cases member
    rfl
  omega

/-- What holds of a value when it holds of everything inside. -/
theorem induction {motive : Json → Prop} (null : motive .null)
    (bool : ∀ value, motive (.bool value)) (num : ∀ value, motive (.num value))
    (str : ∀ value, motive (.str value))
    (arr : ∀ items, (∀ item ∈ items, motive item) → motive (.arr items))
    (obj : ∀ members, (∀ member ∈ members, motive member.2) → motive (.obj members)) :
    ∀ value, motive value
  | .null => null
  | .bool value => bool value
  | .num value => num value
  | .str value => str value
  | .arr items => arr items (fun item _ => induction null bool num str arr obj item)
  | .obj members => obj members (fun member hmember =>
      have := sizeOf_member hmember
      induction null bool num str arr obj member.2)
termination_by value => sizeOf value

section Strings

/-- The value of a hexadecimal digit. -/
def hexValue (c : Char) : Nat :=
  if c.isDigit then c.toNat - '0'.toNat else c.toNat - 'a'.toNat + 10

/-- The character that a text inside a JSON string begins with, and what is
    left after it. -/
def unescape? : List Char → Option (Char × List Char)
  | '\\' :: 'u' :: '0' :: '0' :: high :: low :: rest =>
    some (Char.ofNat (16 * hexValue high + hexValue low), rest)
  | '\\' :: 'n' :: rest => some ('\n', rest)
  | '\\' :: 'r' :: rest => some ('\r', rest)
  | '\\' :: 't' :: rest => some ('\t', rest)
  | '\\' :: 'b' :: rest => some ('\x08', rest)
  | '\\' :: 'f' :: rest => some ('\x0c', rest)
  | '\\' :: c :: rest => some (c, rest)
  | c :: rest => some (c, rest)
  | [] => none

theorem hexValue_digitChar : ∀ n < 16, hexValue (Nat.digitChar n) = n := by
  decide

theorem unescape?_escape (c : Char) (rest : List Char) :
    unescape? (escape c ++ rest) = some (c, rest) := by
  unfold escape
  split_ifs with hquote hslash hline hreturn htab hback hfeed hcontrol
  · rw [eq_of_beq hquote]
    rfl
  · rw [eq_of_beq hslash]
    rfl
  · rw [eq_of_beq hline]
    rfl
  · rw [eq_of_beq hreturn]
    rfl
  · rw [eq_of_beq htab]
    rfl
  · rw [eq_of_beq hback]
    rfl
  · rw [eq_of_beq hfeed]
    rfl
  -- The other controls are written as two digits, from which the number is put together again.
  · have hhigh := hexValue_digitChar (c.toNat / 16) (by omega)
    have hlow := hexValue_digitChar (c.toNat % 16) (by omega)
    simp only [List.cons_append, List.nil_append, unescape?]
    rw [hhigh, hlow, Nat.div_add_mod, Char.ofNat_toNat]
  · have hplain : c ≠ '\\' := by simpa using hslash
    simp [unescape?, hplain]

theorem escape_append_ne (c : Char) (rest more : List Char) :
    escape c ++ rest ≠ '"' :: more := by
  unfold escape
  split_ifs <;> simp_all

theorem newline_notMem_escape (c : Char) : '\n' ∉ escape c := by
  unfold escape
  split_ifs with _ _ hline
  case neg =>
    intro hmem
    exact hline (beq_iff_eq.mpr (List.mem_singleton.mp hmem).symm)
  all_goals simp

theorem toList_quote (text : String) :
    (quote text).toList = '"' :: (text.toList.flatMap escape ++ ['"']) := by
  simp [quote]

/-- A string can be told from everything that begins with it. -/
theorem tells_quote (text : String) :
    Tells (fun _ => True) (fun text => (quote text).toList) text := by
  intro other rest more _ _ h
  have hescape : ∀ c ∈ text.toList, Tells (fun _ => True) escape c := by
    intro c _ d rest more _ _ h
    have hread := congrArg unescape? h
    rw [unescape?_escape, unescape?_escape] at hread
    exact Prod.mk.inj (Option.some.inj hread)
  simp only [toList_quote, List.cons_append, List.append_assoc, List.nil_append,
    List.cons.injEq, true_and] at h
  rcases tells_closed (fun _ => trivial) (fun _ _ => trivial) escape_append_ne hescape h with
    ⟨htext, hrest⟩
  exact ⟨String.toList_inj.mp htext, hrest⟩

theorem newline_notMem_quote (text : String) : '\n' ∉ (quote text).toList := by
  simp [toList_quote, newline_notMem_escape]

end Strings

section Numbers

/-- No number goes on in a text. -/
def EndsNumber (rest : List Char) : Prop :=
  ∀ c ∈ rest.head?, c.isDigit = false

theorem endsNumber_cons {c : Char} (h : c.isDigit = false) (rest : List Char) :
    EndsNumber (c :: rest) := by
  simpa [EndsNumber] using h

theorem toList_toString (n : Nat) : (toString n).toList = Nat.toDigits 10 n := by
  rw [Nat.toString_eq_ofList_toDigits, String.toList_ofList]

theorem isDigit_of_mem_toString {n : Nat} {c : Char} (h : c ∈ (toString n).toList) :
    c.isDigit = true := by
  rw [toList_toString] at h
  exact Nat.isDigit_of_mem_toDigits (by decide) (by decide) h

theorem toString_begins (n : Nat) : ∃ c cs, (toString n).toList = c :: cs ∧ c.isDigit = true := by
  cases hdigits : (toString n).toList with
  | nil =>
      rw [toList_toString] at hdigits
      exact absurd hdigits Nat.toDigits_ne_nil
  | cons c cs => exact ⟨c, cs, rfl, isDigit_of_mem_toString (by rw [hdigits]; simp)⟩

/-- A number is all the digits that a text begins with. -/
theorem takeWhile_toString (n : Nat) {rest : List Char} (h : EndsNumber rest) :
    ((toString n).toList ++ rest).takeWhile Char.isDigit = (toString n).toList := by
  have hrest : rest.takeWhile Char.isDigit = [] := by
    cases rest with
    | nil => rfl
    | cons c cs => simp [h c rfl]
  rw [List.takeWhile_append_of_pos (fun c hc => isDigit_of_mem_toString hc), hrest,
    List.append_nil]

/-- A number can be told when no digit follows it. -/
theorem tells_num (n : Nat) : Tells EndsNumber (fun n : Nat => (toString n).toList) n := by
  intro m rest more hrest hmore h
  have hdigits := congrArg (List.takeWhile Char.isDigit) h
  rw [takeWhile_toString n hrest, takeWhile_toString m hmore] at hdigits
  refine ⟨?_, ?_⟩
  · have hvalue := congrArg (Nat.ofDigitChars 10 · 0) hdigits
    simpa [toList_toString, Nat.ofDigitChars_ten_toDigits] using hvalue
  · simp only [hdigits] at h
    exact List.append_cancel_left h

end Numbers

section Values

variable {α : Type} {write : α → List Char} {close : Char}

theorem intercalate_comma (part : List Char) (parts : List (List Char)) :
    [','].intercalate (part :: parts) = part ++ parts.flatMap (',' :: ·) := by
  induction parts generalizing part with
  | nil => simp
  | cons next rest ih =>
      rw [List.intercalate_cons_cons, ih next, List.flatMap_cons]
      simp

theorem newline_notMem_intercalate {parts : List (List Char)}
    (h : ∀ part ∈ parts, '\n' ∉ part) : '\n' ∉ [','].intercalate parts := by
  cases parts with
  | nil => simp
  | cons part parts =>
      rw [intercalate_comma]
      simp_all

/-- What stands between commas can be told from the text up to the bracket that
    closes it. -/
theorem tells_separated (hcomma : ',' ≠ close) (hdigit : close.isDigit = false)
    (hbegins : ∀ a rest more, write a ++ rest ≠ close :: more)
    {items : List α} (hitems : ∀ a ∈ items, Tells EndsNumber write a)
    {others : List α} {rest more : List Char}
    (h : [','].intercalate (items.map write) ++ close :: rest =
      [','].intercalate (others.map write) ++ close :: more) :
    items = others ∧ rest = more := by
  -- Behind the first one, each has a comma in front of it.
  have hclose := endsNumber_cons hdigit
  have hfollows : ∀ (a : α) rest, EndsNumber (',' :: write a ++ rest) :=
    fun a rest => endsNumber_cons (by decide) _
  cases items with
  | nil =>
      cases others with
      | nil => exact ⟨rfl, (List.cons.inj h).2⟩
      | cons b bs =>
          rw [List.map_cons, intercalate_comma, List.append_assoc] at h
          exact absurd h.symm (hbegins b _ rest)
  | cons a as =>
      rw [List.map_cons, intercalate_comma, List.flatMap_map, List.append_assoc] at h
      cases others with
      | nil => exact absurd h (hbegins a _ more)
      | cons b bs =>
          rw [List.map_cons, intercalate_comma, List.flatMap_map, List.append_assoc] at h
          have hnext := follows_flatMap hclose hfollows
          rcases hitems a (by simp) b _ _ (hnext as rest) (hnext bs more) h with ⟨rfl, htail⟩
          have htails : ∀ d ∈ as, Tells EndsNumber (fun d => ',' :: write d) d :=
            fun d hd e rest more hrest hmore he =>
              hitems d (List.mem_cons_of_mem a hd) e rest more hrest hmore (List.cons.inj he).2
          rcases tells_closed hclose hfollows
            (fun d rest more hd => hcomma (List.cons.inj hd).1) htails htail with ⟨rfl, hrest⟩
          exact ⟨rfl, hrest⟩

/-- How a member of an object is written. -/
def memberText (member : String × Json) : List Char :=
  (quote member.1).toList ++ ':' :: member.2.compact.toList

theorem compactItems_eq (items : List Json) : compactItems items = items.map compact := by
  induction items with
  | nil => rfl
  | cons item rest ih => rw [compactItems, ih, List.map_cons]

theorem compactMembers_eq (members : List (String × Json)) :
    (compactMembers members).map String.toList = members.map memberText := by
  induction members with
  | nil => rfl
  | cons member rest ih =>
      rw [compactMembers, List.map_cons, List.map_cons, ih]
      simp [memberText]

theorem toList_compact_arr (items : List Json) : (compact (.arr items)).toList =
    '[' :: ([','].intercalate (items.map (fun item => item.compact.toList)) ++ [']']) := by
  simp [compact, compactItems_eq, String.toList_intercalate, Function.comp_def]

theorem toList_compact_obj (members : List (String × Json)) : (compact (.obj members)).toList =
    '\x7b' :: ([','].intercalate (members.map memberText) ++ ['\x7d']) := by
  simp [compact, String.toList_intercalate, compactMembers_eq]

/-- What kind of value a value is. -/
inductive Shape where
  | null
  | bool
  | num
  | str
  | arr
  | obj
  deriving DecidableEq

/-- The kind of a value. -/
def shape : Json → Shape
  | .null => .null
  | .bool _ => .bool
  | .num _ => .num
  | .str _ => .str
  | .arr _ => .arr
  | .obj _ => .obj

/-- The kind of the values that begin with a character. -/
def shapeAt? (c : Char) : Option Shape :=
  if c.isDigit then some .num
  else match c with
    | 'n' => some .null
    | 't' | 'f' => some .bool
    | '"' => some .str
    | '[' => some .arr
    | '\x7b' => some .obj
    | _ => none

/-- The first character of a value tells its kind. -/
theorem exists_shapeAt (value : Json) :
    ∃ c cs, value.compact.toList = c :: cs ∧ shapeAt? c = some value.shape := by
  cases value with
  | null => exact ⟨'n', _, rfl, rfl⟩
  | bool value =>
      cases value with
      | false => exact ⟨'f', _, rfl, rfl⟩
      | true => exact ⟨'t', _, rfl, rfl⟩
  | num value =>
      rcases toString_begins value with ⟨c, cs, hc, hdigit⟩
      exact ⟨c, cs, hc, if_pos hdigit⟩
  | str value => exact ⟨'"', _, toList_quote value, rfl⟩
  | arr items => exact ⟨'[', _, toList_compact_arr items, rfl⟩
  | obj members => exact ⟨'\x7b', _, toList_compact_obj members, rfl⟩

theorem shape_eq {value other : Json} {rest more : List Char}
    (h : value.compact.toList ++ rest = other.compact.toList ++ more) :
    value.shape = other.shape := by
  rcases exists_shapeAt value with ⟨c, cs, hc, hvalue⟩
  rcases exists_shapeAt other with ⟨d, ds, hd, hother⟩
  rw [hc, hd] at h
  rw [(List.cons.inj h).1, hother] at hvalue
  exact (Option.some.inj hvalue).symm

theorem compact_append_ne {close : Char} (hclose : shapeAt? close = none) (value : Json)
    (rest more : List Char) : value.compact.toList ++ rest ≠ close :: more := by
  rcases exists_shapeAt value with ⟨c, cs, hc, hvalue⟩
  intro h
  rw [hc] at h
  rw [(List.cons.inj h).1, hclose] at hvalue
  exact absurd hvalue (by simp only [reduceCtorEq, not_false_eq_true])

/-- A member can be told when its value can. -/
theorem tells_member {member : String × Json}
    (h : Tells EndsNumber (fun value : Json => value.compact.toList) member.2) :
    Tells EndsNumber memberText member := by
  intro other rest more hrest hmore heq
  simp only [memberText, List.append_assoc] at heq
  rcases tells_quote member.1 other.1 _ _ trivial trivial heq with ⟨hkey, htail⟩
  rcases h other.2 rest more hrest hmore (List.cons.inj htail).2 with ⟨hvalue, hend⟩
  exact ⟨Prod.ext hkey hvalue, hend⟩

/-- A value can be told when no digit follows it. -/
theorem tells_compact (value : Json) :
    Tells EndsNumber (fun value => value.compact.toList) value := by
  -- In each case the first character leaves only values of the same kind.
  induction value using Json.induction with
  | null =>
      intro other rest more _ _ h
      have hshape := shape_eq h
      cases other with
      | null => exact ⟨rfl, List.append_cancel_left h⟩
      | _ => nomatch hshape
  | bool value =>
      intro other rest more _ _ h
      have hshape := shape_eq h
      cases other with
      | bool value' => cases value <;> cases value' <;> simp_all [compact]
      | _ => nomatch hshape
  | num value =>
      intro other rest more hrest hmore h
      have hshape := shape_eq h
      cases other with
      | num value' =>
          rcases tells_num value value' rest more hrest hmore h with ⟨rfl, hend⟩
          exact ⟨rfl, hend⟩
      | _ => nomatch hshape
  | str value =>
      intro other rest more _ _ h
      have hshape := shape_eq h
      cases other with
      | str value' =>
          rcases tells_quote value value' rest more trivial trivial h with ⟨rfl, hend⟩
          exact ⟨rfl, hend⟩
      | _ => nomatch hshape
  | arr items ih =>
      intro other rest more _ _ h
      have hshape := shape_eq h
      cases other with
      | arr others =>
          simp only [toList_compact_arr, List.cons_append, List.append_assoc, List.nil_append,
            List.cons.injEq, true_and] at h
          rcases tells_separated (by decide) (by decide) (compact_append_ne rfl) ih h with
            ⟨rfl, hend⟩
          exact ⟨rfl, hend⟩
      | _ => nomatch hshape
  | obj members ih =>
      intro other rest more _ _ h
      have hshape := shape_eq h
      cases other with
      | obj others =>
          simp only [toList_compact_obj, List.cons_append, List.append_assoc, List.nil_append,
            List.cons.injEq, true_and] at h
          have hbegins : ∀ member rest more, memberText member ++ rest ≠ '\x7d' :: more := by
            intro member rest more
            simp [memberText, toList_quote]
          rcases tells_separated (by decide) (by decide) hbegins
            (fun member hmember => tells_member (ih member hmember)) h with ⟨rfl, hend⟩
          exact ⟨rfl, hend⟩
      | _ => nomatch hshape

/-- A text is that of one value only. -/
theorem compact_injective : Function.Injective compact := by
  intro value other h
  have hnil : EndsNumber [] := by simp [EndsNumber]
  exact (tells_compact value other [] [] hnil hnil (congrArg (·.toList ++ []) h)).1

/-- A value is written on one line. -/
theorem newline_notMem_compact (value : Json) : '\n' ∉ value.compact.toList := by
  induction value using Json.induction with
  | null => decide
  | bool value => cases value <;> decide
  | num value =>
      intro h
      exact absurd (isDigit_of_mem_toString h) (by decide)
  | str value => exact newline_notMem_quote value
  | arr items ih =>
      have hitems := newline_notMem_intercalate (List.forall_mem_map.mpr ih)
      simpa [toList_compact_arr] using hitems
  | obj members ih =>
      have hmembers : '\n' ∉ [','].intercalate (members.map memberText) := by
        refine newline_notMem_intercalate (List.forall_mem_map.mpr fun member hmember => ?_)
        simp [memberText, newline_notMem_quote, ih member hmember]
      simpa [toList_compact_obj] using hmembers

end Values

end Json

end Gherkin
