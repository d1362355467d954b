import Mathlib.Data.Nat.Notation

/-!
# JSON objects of unsigned integers

The JSON objects whose values are unsigned integers and whose keys need no escapes, written without
white space: their grammar, a parser for it, and a printer.

## Main definitions

* `FlatJson.IsObject`: the text of an object with given members, by the grammar.
* `FlatJson.parse`: the parser.
* `FlatJson.print`: the printer.

## Main results

* `FlatJson.parse_eq_some_iff`: the parser reads what the grammar derives and nothing else.
* `FlatJson.isObject_print`: what is printed is derived by the grammar.
* `FlatJson.parse_print`: the parser reads back what is printed.
-/

namespace FlatJson

/-- A character that a string holds as it is: not a quotation mark, a backslash or a control
character. -/
def isPlain (c : Char) : Bool := c != '\"' && c != '\\' && decide (0x20 ≤ c.toNat)

/-- The digits of an unsigned integer, without a superfluous leading zero. -/
def IsNumeral (digits : List Char) : Prop :=
  digits ≠ [] ∧ (∀ c ∈ digits, c.isDigit = true) ∧ (digits.head? = some '0' → digits = ['0'])

instance (digits : List Char) : Decidable (IsNumeral digits) :=
  inferInstanceAs (Decidable (_ ∧ _ ∧ _))

/-- A key and its value. -/
abbrev Member := List Char × ℕ

/-- The text of a member. -/
inductive IsMember : Member → List Char → Prop
  | mk {key digits : List Char} (hkey : ∀ c ∈ key, isPlain c = true) (hdigits : IsNumeral digits) :
    IsMember (key, Nat.ofDigitChars 10 digits 0) ('\"' :: (key ++ '\"' :: ':' :: digits))

/-- The text of one or more members, with commas between them. -/
inductive IsMembers : List Member → List Char → Prop
  | last {m : Member} {text : List Char} (h : IsMember m text) : IsMembers [m] text
  | cons {m : Member} {ms : List Member} {text rest : List Char} (h : IsMember m text)
      (hrest : IsMembers ms rest) : IsMembers (m :: ms) (text ++ ',' :: rest)

/-- The text of an object. -/
inductive IsObject : List Member → List Char → Prop
  | empty : IsObject [] ['{', '}']
  | members {ms : List Member} {text : List Char} (h : IsMembers ms text) :
    IsObject ms ('{' :: (text ++ ['}']))

/-! ## The parser -/

/-- The numeral that a text starts with, and the rest. -/
def parseNumeral (text : List Char) : Option (ℕ × List Char) :=
  let digits := text.takeWhile Char.isDigit
  if IsNumeral digits then some (Nat.ofDigitChars 10 digits 0, text.dropWhile Char.isDigit)
  else none

/-- The member that a text starts with, and the rest. -/
def parseMember : List Char → Option (Member × List Char)
  | '\"' :: text =>
    match text.dropWhile isPlain with
    | '\"' :: ':' :: rest =>
      (parseNumeral rest).map fun (n, rest) => ((text.takeWhile isPlain, n), rest)
    | _ => none
  | _ => none

/-- The members up to the end of an object. -/
def parseMembers : (fuel : ℕ) → List Char → Option (List Member)
  | 0, _ => none
  | fuel + 1, text =>
    match parseMember text with
    | some (m, ['}']) => some [m]
    | some (m, ',' :: rest) => (parseMembers fuel rest).map (m :: ·)
    | _ => none

/-- The members of an object. -/
def parse : List Char → Option (List Member)
  | '{' :: text => if text = ['}'] then some [] else parseMembers text.length text
  | _ => none

/-! ## The printer -/

def printMember (m : Member) : List Char := '\"' :: (m.1 ++ '\"' :: ':' :: Nat.toDigits 10 m.2)

def printMembers : List Member → List Char
  | [] => []
  | [m] => printMember m
  | m :: ms => printMember m ++ ',' :: printMembers ms

def print (ms : List Member) : List Char := '{' :: (printMembers ms ++ ['}'])

/-! ## Numerals -/

/-- Decimal digits start with a zero only when they are those of zero. -/
theorem eq_zero_of_head?_toDigits (n : ℕ) (h : (Nat.toDigits 10 n).head? = some '0') : n = 0 := by
  induction n using Nat.strongRecOn with
  | ind n ih =>
    rcases Nat.lt_or_ge n 10 with hlt | hge
    · rw [Nat.toDigits_of_lt_base hlt, List.head?_cons, Option.some_inj] at h
      have hdigit : ∀ d < 10, Nat.digitChar d = '0' → d = 0 := by decide
      exact hdigit n hlt h
    · -- the first digit is that of the quotient
      rw [Nat.toDigits_of_base_le (by decide) hge, List.head?_append,
        Option.or_of_isSome (by simp)] at h
      have hzero := ih (n / 10) (by omega) h
      omega

theorem isNumeral_toDigits (n : ℕ) : IsNumeral (Nat.toDigits 10 n) := by
  refine ⟨Nat.toDigits_ne_nil, fun c => Nat.isDigit_of_mem_toDigits (by decide) (by decide), ?_⟩
  intro h
  rw [eq_zero_of_head?_toDigits n h]
  rfl

/-! ## The parser and the grammar -/

/-- A text is cut where the first character fails the test. -/
theorem span_append {p : Char → Bool} {l r : List Char} (hl : ∀ c ∈ l, p c = true)
    (hr : ∀ c ∈ r.head?, p c = false) :
    (l ++ r).takeWhile p = l ∧ (l ++ r).dropWhile p = r := by
  rw [List.takeWhile_append_of_pos hl, List.dropWhile_append_of_pos hl]
  cases r with
  | nil => simp
  | cons c r =>
    have hc : p c = false := hr c rfl
    simp [hc]

theorem parseNumeral_append {digits rest : List Char} (h : IsNumeral digits)
    (hrest : ∀ c ∈ rest.head?, c.isDigit = false) :
    parseNumeral (digits ++ rest) = some (Nat.ofDigitChars 10 digits 0, rest) := by
  obtain ⟨htake, hdrop⟩ := span_append h.2.1 hrest
  rw [parseNumeral, htake, hdrop, if_pos h]

theorem parseMember_append {m : Member} {text rest : List Char} (h : IsMember m text)
    (hrest : ∀ c ∈ rest.head?, c.isDigit = false) :
    parseMember (text ++ rest) = some (m, rest) := by
  cases h with
  | @mk key digits hkey hdigits =>
    obtain ⟨htake, hdrop⟩ :=
      span_append (r := '\"' :: ':' :: (digits ++ rest)) hkey (by simp [isPlain])
    simp only [List.cons_append, List.append_assoc, parseMember, htake, hdrop]
    rw [parseNumeral_append hdigits hrest]
    rfl

theorem IsMembers.exists_cons {ms : List Member} {text : List Char} (h : IsMembers ms text) :
    ∃ rest, text = '\"' :: rest := by
  cases h with
  | last h =>
    cases h
    exact ⟨_, rfl⟩
  | cons h =>
    cases h
    exact ⟨_, rfl⟩

theorem parseMembers_append {ms : List Member} {text : List Char} (h : IsMembers ms text)
    {fuel : ℕ} (hfuel : text.length < fuel) : parseMembers fuel (text ++ ['}']) = some ms := by
  induction h generalizing fuel with
  | last h =>
    obtain ⟨fuel, rfl⟩ := Nat.exists_eq_succ_of_ne_zero (Nat.ne_zero_of_lt hfuel)
    rw [parseMembers, parseMember_append h (by simp)]
    rfl
  | @cons m ms text rest h hrest ih =>
    obtain ⟨fuel, rfl⟩ := Nat.exists_eq_succ_of_ne_zero (Nat.ne_zero_of_lt hfuel)
    rw [List.length_append, List.length_cons] at hfuel
    rw [List.append_assoc, List.cons_append, parseMembers, parseMember_append h (by simp)]
    simp only [ih (show rest.length < fuel by omega), Option.map_some]

theorem parse_of_isObject {ms : List Member} {text : List Char} (h : IsObject ms text) :
    parse text = some ms := by
  cases h with
  | empty => rfl
  | members h =>
    have hne := h.exists_cons
    rw [parse, if_neg, parseMembers_append h (by simp)]
    obtain ⟨rest, rfl⟩ := hne
    simp

theorem exists_numeral {text rest : List Char} {n : ℕ} (h : parseNumeral text = some (n, rest)) :
    ∃ digits, IsNumeral digits ∧ n = Nat.ofDigitChars 10 digits 0 ∧ text = digits ++ rest := by
  rw [parseNumeral] at h
  split at h
  · rename_i hnumeral
    cases h
    exact ⟨_, hnumeral, rfl, List.takeWhile_append_dropWhile.symm⟩
  · cases h

theorem exists_member {text rest : List Char} {m : Member}
    (h : parseMember text = some (m, rest)) : ∃ front, IsMember m front ∧ text = front ++ rest := by
  unfold parseMember at h
  split at h
  · rename_i text
    split at h
    · rename_i rest' hdrop
      obtain ⟨⟨n, rest''⟩, hn, heq⟩ := Option.map_eq_some_iff.mp h
      cases heq
      obtain ⟨digits, hdigits, rfl, rfl⟩ := exists_numeral hn
      refine ⟨'\"' :: (text.takeWhile isPlain ++ '\"' :: ':' :: digits), .mk ?_ hdigits, ?_⟩
      · exact fun c hc => List.all_eq_true.mp List.all_takeWhile c hc
      · rw [List.cons_append, List.append_assoc, List.cons_append, List.cons_append, ← hdrop,
          List.takeWhile_append_dropWhile]
    · cases h
  · cases h

theorem exists_members {fuel : ℕ} {text : List Char} {ms : List Member}
    (h : parseMembers fuel text = some ms) :
    ∃ front, IsMembers ms front ∧ text = front ++ ['}'] := by
  induction fuel generalizing text ms with
  | zero => cases h
  | succ fuel ih =>
    rw [parseMembers] at h
    split at h
    · rename_i m hm
      cases h
      obtain ⟨front, hfront, rfl⟩ := exists_member hm
      exact ⟨front, .last hfront, rfl⟩
    · rename_i m rest hm
      obtain ⟨ms', hms', rfl⟩ := Option.map_eq_some_iff.mp h
      obtain ⟨front, hfront, rfl⟩ := exists_member hm
      obtain ⟨back, hback, rfl⟩ := ih hms'
      exact ⟨_, .cons hfront hback, by simp⟩
    · cases h

theorem isObject_of_parse {ms : List Member} {text : List Char} (h : parse text = some ms) :
    IsObject ms text := by
  unfold parse at h
  split at h
  · split at h
    · rename_i htext
      cases h
      rw [htext]
      exact .empty
    · obtain ⟨front, hfront, rfl⟩ := exists_members h
      exact .members hfront
  · cases h

/-- The parser reads what the grammar derives and nothing else. -/
theorem parse_eq_some_iff {ms : List Member} {text : List Char} :
    parse text = some ms ↔ IsObject ms text :=
  ⟨isObject_of_parse, parse_of_isObject⟩

/-! ## The printer and the grammar -/

theorem isMember_print {m : Member} (h : ∀ c ∈ m.1, isPlain c = true) :
    IsMember m (printMember m) := by
  have hmember := IsMember.mk h (isNumeral_toDigits m.2)
  rw [Nat.ofDigitChars_ten_toDigits] at hmember
  exact hmember

theorem isMembers_print {ms : List Member} (hne : ms ≠ [])
    (h : ∀ m ∈ ms, ∀ c ∈ m.1, isPlain c = true) : IsMembers ms (printMembers ms) := by
  induction ms with
  | nil => exact absurd rfl hne
  | cons m ms ih =>
    have hm := isMember_print (h m List.mem_cons_self)
    cases ms with
    | nil => exact .last hm
    | cons m' ms => exact .cons hm (ih (by simp) fun m hm => h m (List.mem_cons_of_mem _ hm))

/-- What is printed is derived by the grammar. -/
theorem isObject_print {ms : List Member} (h : ∀ m ∈ ms, ∀ c ∈ m.1, isPlain c = true) :
    IsObject ms (print ms) := by
  by_cases hne : ms = []
  · rw [hne]
    exact .empty
  · exact .members (isMembers_print hne h)

/-- The parser reads back what is printed. -/
theorem parse_print {ms : List Member} (h : ∀ m ∈ ms, ∀ c ∈ m.1, isPlain c = true) :
    parse (print ms) = some ms :=
  parse_eq_some_iff.mpr (isObject_print h)

end FlatJson
