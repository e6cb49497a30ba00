import AccessControl.Proofs.IdentifierReading
import AccessControl.Text.Number
import Mathlib.Data.List.TakeDrop

/-!
# What numbers are read

A natural number is read from decimal digits that may have a plus sign before them.  A float is read
from a sign, digits with or without a point among or around them and an exponent, or from the name of
an infinity or of no number in letters of either case.  A text of any other form is refused.
-/

namespace AccessControl.Text

namespace Reader

variable {α β : Type} {text rest run : List Char} {accepts : Char → Bool}

/-- Whether a reader takes `value` from the start of a text and leaves `rest`. -/
def Takes (reader : Reader α) (text : List Char) (value : α) (rest : List Char) : Prop :=
  StateT.run reader text = some (value, rest)

/-- Whether a reader takes nothing. -/
def Refuses (reader : Reader α) (text : List Char) : Prop := StateT.run reader text = none

theorem takes_pure {value other : α} :
    Takes (pure value) text other rest ↔ other = value ∧ rest = text := by
  simp [Takes, eq_comm]

theorem takes_bind {reader : Reader α} {next : α → Reader β} {value : β} :
    Takes (reader >>= next) text value rest ↔
      ∃ first middle, Takes reader text first middle ∧ Takes (next first) middle value rest := by
  simp only [Takes, StateT.run_bind, Option.bind_eq_bind, Option.bind_eq_some_iff, Prod.exists]

theorem takes_seqRight {reader : Reader α} {next : Reader β} {value : β} :
    Takes (reader *> next) text value rest ↔
      ∃ first middle, Takes reader text first middle ∧ Takes next middle value rest := by
  rw [seqRight_eq_bind, takes_bind]

theorem run_orElse {reader other : Reader α} : StateT.run (reader <|> other) text =
    (StateT.run reader text).orElse fun _ => StateT.run other text := rfl

theorem takes_orElse {reader other : Reader α} {value : α} :
    Takes (reader <|> other) text value rest ↔
      Takes reader text value rest ∨ Refuses reader text ∧ Takes other text value rest := by
  simp only [Takes, Refuses, run_orElse]
  cases StateT.run reader text <;> simp

theorem takes_guard {condition : Prop} [Decidable condition] {value : Unit} :
    Takes (guard condition) text value rest ↔ condition ∧ rest = text := by
  by_cases h : condition
  · simp [guard, h, takes_pure]
  · have hfailure : StateT.run (failure : Reader Unit) text = none := rfl
    simp [guard, h, Takes, hfailure]

/-- What is there is taken, and nothing is taken only where it is not there. -/
theorem takes_optional {reader : Reader α} {value : Option α} :
    Takes (optional reader) text value rest ↔
      (∃ found, value = some found ∧ Takes reader text found rest) ∨
        Refuses reader text ∧ value = none ∧ rest = text := by
  have hmap : StateT.run (some <$> reader) text =
      (StateT.run reader text).map fun found => (some found.1, found.2) := by
    rw [StateT.run_map]
    rfl
  rw [optional, takes_orElse, takes_pure]
  simp only [Takes, Refuses, hmap]
  cases StateT.run reader text with
  | none => simp
  | some found => grind

theorem takes_satisfying {c : Char} :
    Takes (satisfying accepts) text c rest ↔ text = c :: rest ∧ accepts c = true := by
  cases text with
  | nil => simp [Takes, StateT.run, satisfying]
  | cons first others =>
    simp only [Takes, StateT.run, satisfying]
    split <;> grind

/-- A character that a text does not begin with is not taken. -/
theorem refuses_satisfying :
    Refuses (satisfying accepts) text ↔ ∀ c ∈ text.head?, accepts c = false := by
  cases text with
  | nil => simp [Refuses, StateT.run, satisfying]
  | cons first others => simp [Refuses, StateT.run, satisfying]

theorem run_char {c : Char} : StateT.run (char c) text =
    (StateT.run (satisfying (· == c)) text).map fun found => ((), found.2) := by
  show (StateT.run (satisfying (· == c)) text).bind _ = _
  cases StateT.run (satisfying (· == c)) text <;> rfl

theorem takes_char {c : Char} {value : Unit} :
    Takes (char c) text value rest ↔ text = c :: rest := by
  have hfirst : Takes (char c) text value rest ↔
      ∃ found, Takes (satisfying (· == c)) text found rest := by
    simp [Takes, run_char]
  simp [hfirst, takes_satisfying]

theorem refuses_char {c : Char} : Refuses (char c) text ↔ ∀ first ∈ text.head?, first ≠ c := by
  have hfirst : Refuses (char c) text ↔ Refuses (satisfying (· == c)) text := by
    simp [Refuses, run_char]
  simp [hfirst, refuses_satisfying]

/-- A run of characters is taken as far as it goes. -/
theorem takes_span : Takes (span accepts) text run rest ↔ text = run ++ rest ∧
    (∀ c ∈ run, accepts c = true) ∧ ∀ c ∈ rest.head?, accepts c = false := by
  have hspan : StateT.run (span accepts) text =
      some (text.takeWhile accepts, text.dropWhile accepts) := by
    rw [← List.span_eq_takeWhile_dropWhile]
    rfl
  rw [Takes, hspan, Option.some.injEq, Prod.mk.injEq]
  constructor
  · rintro ⟨rfl, rfl⟩
    refine ⟨List.takeWhile_append_dropWhile.symm, fun c => List.mem_takeWhile_imp, fun c hc => ?_⟩
    have hnot := List.head?_dropWhile_not accepts text
    rw [Option.mem_def.1 hc] at hnot
    simpa using hnot
  · rintro ⟨rfl, hrun, hrest⟩
    rw [List.takeWhile_append_of_pos hrun, List.dropWhile_append_of_pos hrun]
    cases rest with
    | nil => simp
    | cons c others => simp [hrest c rfl]

theorem takes_spanOne : Takes (spanOne accepts) text run rest ↔ run ≠ [] ∧ text = run ++ rest ∧
    (∀ c ∈ run, accepts c = true) ∧ ∀ c ∈ rest.head?, accepts c = false := by
  simp only [spanOne, takes_bind, takes_pure, takes_satisfying, takes_span]
  constructor
  · rintro ⟨first, _, ⟨rfl, hfirst⟩, others, _, ⟨rfl, hothers, hrest⟩, rfl, rfl⟩
    exact ⟨by simp, rfl, List.forall_mem_cons.2 ⟨hfirst, hothers⟩, hrest⟩
  · rintro ⟨hnonempty, rfl, hrun, hrest⟩
    obtain ⟨first, others, rfl⟩ := List.exists_cons_of_ne_nil hnonempty
    rw [List.forall_mem_cons] at hrun
    exact ⟨first, _, ⟨rfl, hrun.1⟩, others, _, ⟨rfl, hrun.2, hrest⟩, rfl, rfl⟩

theorem whole_eq_some {reader : Reader α} {text : String} {value : α} :
    whole reader text = some value ↔ Takes reader text.toList value [] := by
  have hend : ∀ {rest : List Char}, StateT.run atEnd rest = if rest.isEmpty then some ((), [])
    else none := rfl
  rw [whole, seqLeft_eq_bind, StateT.run_bind, Takes]
  cases StateT.run reader text.toList with
  | none => simp
  | some found =>
    obtain ⟨found, left⟩ := found
    cases left <;> simp [hend]

end Reader

open Reader

/-! ## Natural numbers -/

/-- Whether every character is a decimal digit. -/
def Digits (text : List Char) : Prop := ∀ c ∈ text, isDecimalDigit c = true

/-- Whether a text writes a natural number: in decimal digits, perhaps with a plus sign before. -/
def WritesNatural (text : String) (n : Nat) : Prop :=
  ∃ mark digits, text.toList = mark ++ digits ∧ (mark = [] ∨ mark = ['+']) ∧ digits ≠ [] ∧
    Digits digits ∧ n = numberIn 10 digits

theorem not_mem_head?_of_digits {text : List Char} {c : Char} (h : Digits text)
    (hc : isDecimalDigit c = false) : ∀ first ∈ text.head?, first ≠ c := by
  rintro _ hfirst rfl
  have hdigit := h _ (List.mem_of_mem_head? hfirst)
  rw [hc] at hdigit
  cases hdigit

theorem naturalUpTo?_eq_some {greatest n : Nat} {text : String} :
    naturalUpTo? greatest text = some n ↔ WritesNatural text n ∧ n ≤ greatest := by
  have hdigits : ∀ {digits}, whole (Reader.optional (char '+') *> spanOne isDecimalDigit) text =
      some digits ↔ ∃ mark, text.toList = mark ++ digits ∧ (mark = [] ∨ mark = ['+']) ∧
        digits ≠ [] ∧ Digits digits := by
    intro digits
    simp only [whole_eq_some, takes_seqRight, takes_optional, takes_spanOne, takes_char,
      refuses_char, List.append_nil]
    constructor
    · rintro ⟨_, middle, ⟨-, -, hplus⟩ | ⟨-, -, rfl⟩, hnonempty, rfl, hall, -⟩
      · exact ⟨['+'], hplus, .inr rfl, hnonempty, hall⟩
      · exact ⟨[], rfl, .inl rfl, hnonempty, hall⟩
    · rintro ⟨mark, htext, rfl | rfl, hnonempty, hall⟩
      · refine ⟨none, digits, .inr ⟨?_, rfl, htext.symm⟩, hnonempty, rfl, hall, nofun⟩
        rw [htext]
        exact not_mem_head?_of_digits hall (by decide)
      · exact ⟨some (), digits, .inl ⟨(), rfl, htext⟩, hnonempty, rfl, hall, nofun⟩
  simp only [naturalUpTo?, Option.bind_eq_bind, Option.bind_eq_some_iff, hdigits, WritesNatural]
  constructor
  · rintro ⟨digits, ⟨mark, htext, hmark, hnonempty, hall⟩, hbound⟩
    split at hbound
    case isTrue hle =>
      obtain rfl := Option.some.inj hbound
      exact ⟨⟨mark, digits, htext, hmark, hnonempty, hall, rfl⟩, hle⟩
    case isFalse => cases hbound
  · rintro ⟨⟨mark, digits, htext, hmark, hnonempty, hall, rfl⟩, hle⟩
    exact ⟨digits, ⟨mark, htext, hmark, hnonempty, hall⟩, if_pos hle⟩

/-! ## Floats -/

/-- How a sign is written: by a minus sign for a negative number, and by a plus sign or nothing for
another. -/
inductive WritesSign : Bool → List Char → Prop
  | bare : WritesSign false []
  | plus : WritesSign false ['+']
  | minus : WritesSign true ['-']

/-- How the digits behind a point are written: with the point before them, which is there even if
they are none, or not at all. -/
inductive WritesPlaces : List Char → List Char → Prop
  | bare : WritesPlaces [] []
  | point {places : List Char} (h : Digits places) : WritesPlaces places ('.' :: places)

/-- How an exponent is written: by a letter, a sign and digits, or by nothing for zero. -/
inductive WritesExponent : Int → List Char → Prop
  | bare : WritesExponent 0 []
  | marked {letter : Char} {negative : Bool} {mark digits : List Char}
      (hletter : letter = 'e' ∨ letter = 'E') (hsign : WritesSign negative mark)
      (hnonempty : digits ≠ []) (hall : Digits digits) :
      WritesExponent (signedInteger negative digits) (letter :: (mark ++ digits))

/-- Whether a text writes a float in digits, of which there is one before or behind the point, and
behind its sign. -/
def WritesDecimal (negative : Bool) (text : List Char) (word : Binary64) : Prop :=
  ∃ front places point exponent power, text = front ++ point ++ power ∧ Digits front ∧
    WritesPlaces places point ∧ front ++ places ≠ [] ∧ WritesExponent exponent power ∧
    word = Binary64.ofDecimal negative (numberIn 10 (front ++ places)) (exponent - places.length)

/-- Whether a text names an infinity or no number. -/
def WritesName (negative : Bool) (text : List Char) (word : Binary64) : Prop :=
  let name := String.ofList text
  ((sameLetters name "inf" = true ∨ sameLetters name "infinity" = true) ∧
    word = Binary64.infinity negative) ∨
  sameLetters name "nan" = true ∧ word = Binary64.notANumber negative

/-- Whether a text writes a float. -/
def WritesFloat (text : String) (word : Binary64) : Prop :=
  ∃ negative mark form, text.toList = mark ++ form ∧ WritesSign negative mark ∧
    (WritesDecimal negative form word ∨ WritesName negative form word)

variable {text rest : List Char} {negative : Bool}

/-- Where no sign follows, a sign is read as it is written. -/
theorem takes_sign (hrest : ∀ first ∈ rest.head?, first ≠ '+' ∧ first ≠ '-') :
    Takes sign text negative rest ↔ ∃ mark, text = mark ++ rest ∧ WritesSign negative mark := by
  simp only [sign, takes_bind, takes_pure, takes_optional, oneOf, takes_satisfying,
    refuses_satisfying]
  constructor
  · rintro ⟨found, middle, ⟨c, rfl, rfl, hc⟩ | ⟨-, rfl, rfl⟩, rfl, rfl⟩
    · simp only [List.contains_eq_mem, List.mem_cons, List.not_mem_nil, or_false,
        decide_eq_true_eq] at hc
      rcases hc with rfl | rfl
      · exact ⟨['+'], rfl, .plus⟩
      · exact ⟨['-'], rfl, .minus⟩
    · exact ⟨[], rfl, .bare⟩
  · rintro ⟨mark, rfl, hsign⟩
    cases hsign with
    | bare =>
      refine ⟨none, rest, .inr ⟨fun first hfirst => ?_, rfl, rfl⟩, rfl, rfl⟩
      simpa using hrest first hfirst
    | plus => exact ⟨some '+', rest, .inl ⟨'+', rfl, rfl, rfl⟩, rfl, rfl⟩
    | minus => exact ⟨some '-', rest, .inl ⟨'-', rfl, rfl, rfl⟩, rfl, rfl⟩

/-- The digits behind a point are read as far as they go. -/
theorem takes_places {digits : List Char}
    (hrest : ∀ first ∈ rest.head?, first ≠ '.' ∧ isDecimalDigit first = false) :
    (∃ places, Takes (Reader.optional (char '.' *> span isDecimalDigit)) text places rest ∧
      places.getD [] = digits) ↔ ∃ point, text = point ++ rest ∧ WritesPlaces digits point := by
  simp only [takes_optional, takes_seqRight, takes_char, takes_span]
  constructor
  · rintro ⟨_, ⟨places, rfl, _, middle, rfl, rfl, hall, -⟩ | ⟨-, rfl, rfl⟩, rfl⟩
    · exact ⟨'.' :: places, rfl, .point hall⟩
    · exact ⟨[], rfl, .bare⟩
  · rintro ⟨point, rfl, hpoint⟩
    cases hpoint with
    | bare =>
      have hnone : Refuses (char '.') rest := refuses_char.2 fun first hfirst =>
        (hrest first hfirst).1
      have hrefuses : Refuses (char '.' *> span isDecimalDigit) rest := by
        rw [Refuses] at hnone
        rw [Refuses, seqRight_eq_bind, StateT.run_bind, hnone]
        rfl
      exact ⟨none, .inr ⟨hrefuses, rfl, rfl⟩, rfl⟩
    | point hall =>
      exact ⟨some digits, .inl ⟨digits, rfl, (), _, rfl, rfl, hall, fun first hfirst =>
        (hrest first hfirst).2⟩, rfl⟩

theorem not_sign_of_digits {digits : List Char} (h : Digits digits) :
    ∀ first ∈ digits.head?, first ≠ '+' ∧ first ≠ '-' := fun first hfirst =>
  ⟨not_mem_head?_of_digits h (by decide) first hfirst,
    not_mem_head?_of_digits h (by decide) first hfirst⟩

/-- An exponent is read up to the end of the text. -/
theorem takes_exponent {exponent : Int} :
    (∃ found, Takes (Reader.optional (floatExponent (spanOne isDecimalDigit))) text found [] ∧
      found.getD 0 = exponent) ↔ WritesExponent exponent text := by
  have hmarked : ∀ {exponent}, Takes (floatExponent (spanOne isDecimalDigit)) text exponent [] ↔
      ∃ letter negative mark digits, text = letter :: (mark ++ digits) ∧
        (letter = 'e' ∨ letter = 'E') ∧ WritesSign negative mark ∧ digits ≠ [] ∧ Digits digits ∧
        exponent = signedInteger negative digits := by
    intro exponent
    simp only [floatExponent, takes_bind, takes_pure, oneOf, takes_satisfying, takes_spanOne]
    constructor
    · rintro ⟨letter, _, ⟨rfl, hletter⟩, negative, _, hsign, digits, _,
        ⟨hnonempty, rfl, hall, -⟩, rfl, rfl⟩
      rw [List.append_nil, takes_sign (not_sign_of_digits hall)] at hsign
      obtain ⟨mark, rfl, hsign⟩ := hsign
      exact ⟨letter, negative, mark, digits, rfl, by simpa using hletter, hsign, hnonempty, hall,
        rfl⟩
    · rintro ⟨letter, negative, mark, digits, rfl, hletter, hsign, hnonempty, hall, rfl⟩
      refine ⟨letter, _, ⟨rfl, by simpa using hletter⟩, negative, digits, ?_, digits, [],
        ⟨hnonempty, by simp, hall, nofun⟩, rfl, rfl⟩
      exact (takes_sign (not_sign_of_digits hall)).2 ⟨mark, rfl, hsign⟩
  simp only [takes_optional]
  constructor
  · rintro ⟨_, ⟨found, rfl, htakes⟩ | ⟨-, rfl, rfl⟩, rfl⟩
    · obtain ⟨letter, negative, mark, digits, rfl, hletter, hsign, hnonempty, hall, rfl⟩ :=
        hmarked.1 htakes
      exact .marked hletter hsign hnonempty hall
    · exact .bare
  · intro h
    cases h with
    | bare => exact ⟨none, .inr ⟨rfl, rfl, rfl⟩, rfl⟩
    | @marked letter negative mark digits hletter hsign hnonempty hall =>
      exact ⟨_, .inl ⟨_, rfl, hmarked.2 ⟨letter, negative, mark, digits, rfl, hletter, hsign,
        hnonempty, hall, rfl⟩⟩, rfl⟩

/-- What a written exponent begins with is no part of the digits before it. -/
theorem WritesExponent.head {exponent : Int} {power : List Char} (h : WritesExponent exponent power) :
    ∀ first ∈ power.head?, first ≠ '.' ∧ isDecimalDigit first = false := by
  cases h with
  | bare => nofun
  | marked hletter =>
    rintro _ ⟨⟩
    rcases hletter with rfl | rfl <;> decide

theorem WritesPlaces.head {places point power : List Char} (h : WritesPlaces places point)
    (hpower : ∀ first ∈ power.head?, first ≠ '.' ∧ isDecimalDigit first = false) :
    ∀ first ∈ (point ++ power).head?, isDecimalDigit first = false := by
  cases h with
  | bare => exact fun first hfirst => (hpower first hfirst).2
  | point =>
    rintro _ ⟨⟩
    decide

theorem takes_floatDigits {word : Binary64} :
    Takes (floatDigits negative) text word [] ↔ WritesDecimal negative text word := by
  simp only [floatDigits, takes_bind, takes_pure, takes_span, takes_guard]
  constructor
  · rintro ⟨front, _, ⟨rfl, hfront, -⟩, places, _, hplaces, _, power, ⟨hsome, rfl⟩, exponent, _,
      hexponent, rfl, rfl⟩
    have hpower : WritesExponent (exponent.getD 0) power := takes_exponent.1 ⟨_, hexponent, rfl⟩
    obtain ⟨point, rfl, hpoint⟩ := (takes_places hpower.head).1 ⟨places, hplaces, rfl⟩
    exact ⟨front, _, point, _, power, (List.append_assoc ..).symm, hfront, hpoint,
      by simpa using hsome, hpower, rfl⟩
  · rintro ⟨front, digits, point, value, power, rfl, hfront, hpoint, hsome, hpower, rfl⟩
    obtain ⟨places, hplaces, rfl⟩ := (takes_places hpower.head).2 ⟨point, rfl, hpoint⟩
    obtain ⟨exponent, hexponent, rfl⟩ := takes_exponent.2 hpower
    exact ⟨front, _, ⟨List.append_assoc .., hfront, hpoint.head hpower.head⟩, places, power,
      hplaces, (), power, ⟨by simpa using hsome, rfl⟩, exponent, [], hexponent, rfl, rfl⟩

/-- A name begins with a letter that begins no float in digits and is no sign. -/
theorem WritesName.head {word : Binary64} (h : WritesName negative text word) :
    ∀ first ∈ text.head?, isDecimalDigit first = false ∧ first ≠ '.' ∧ first ≠ '+' ∧ first ≠ '-' := by
  have hupper : ∀ first ∈ text.head?, first.toUpper = 'I' ∨ first.toUpper = 'N' := by
    simp only [WritesName, sameLetters_iff, String.toList_ofList] at h
    intro first hfirst
    obtain ⟨others, rfl⟩ := List.head?_eq_some_iff.1 hfirst
    rcases h with ⟨hname | hname, -⟩ | ⟨hname, -⟩
    · exact .inl (List.cons.inj hname).1
    · exact .inl (List.cons.inj hname).1
    · exact .inr (List.cons.inj hname).1
  intro first hfirst
  have hletter := hupper first hfirst
  refine ⟨?_, ?_, ?_, ?_⟩
  · rw [isDecimalDigit, isDigitIn, ← hexValue?_toUpper]
    rcases hletter with hletter | hletter <;> rw [hletter] <;> decide
  all_goals
    rintro rfl
    revert hletter
    decide

theorem takes_floatName {word : Binary64} :
    Takes (floatName negative) text word [] ↔ WritesName negative text word := by
  have hall : ∀ {name rest}, Takes (span fun _ => true) text name rest ↔ name = text ∧ rest = [] := by
    intro name rest
    rw [takes_span]
    constructor
    · rintro ⟨rfl, -, hrest⟩
      cases rest with
      | nil => exact ⟨(List.append_nil name).symm, rfl⟩
      | cons first others => cases hrest first rfl
    · rintro ⟨rfl, rfl⟩
      exact ⟨(List.append_nil name).symm, fun _ _ => rfl, nofun⟩
  simp only [floatName, takes_bind, hall, WritesName]
  constructor
  · rintro ⟨_, _, ⟨rfl, rfl⟩, htakes⟩
    split at htakes
    case isTrue hname =>
      obtain ⟨rfl, -⟩ := takes_pure.1 htakes
      exact .inl ⟨by simpa using hname, rfl⟩
    case isFalse =>
      obtain ⟨_, _, hguard, hpure⟩ := takes_bind.1 htakes
      obtain ⟨rfl, -⟩ := takes_pure.1 hpure
      exact .inr ⟨(takes_guard.1 hguard).1, rfl⟩
  · intro h
    refine ⟨_, _, ⟨rfl, rfl⟩, ?_⟩
    rcases h with ⟨hname, rfl⟩ | ⟨hname, rfl⟩
    · rw [if_pos (by simpa using hname)]
      exact takes_pure.2 ⟨rfl, rfl⟩
    · -- no text names both an infinity and no number
      have hother : ¬(sameLetters (String.ofList text) "inf" ||
          sameLetters (String.ofList text) "infinity") = true := by
        rw [sameLetters_iff] at hname
        rw [sameLetters, sameLetters, hname]
        decide
      rw [if_neg hother]
      exact takes_bind.2 ⟨(), [], takes_guard.2 ⟨hname, rfl⟩, takes_pure.2 ⟨rfl, rfl⟩⟩

/-- A name is no float in digits. -/
theorem WritesName.refuses_floatDigits {word : Binary64} (h : WritesName negative text word) :
    Refuses (floatDigits negative) text := by
  rw [Refuses, Option.eq_none_iff_forall_ne_some]
  rintro ⟨value, rest⟩ htakes
  have hfloat : Takes (floatDigits negative) text value rest := htakes
  simp only [floatDigits, takes_bind, takes_span, takes_guard] at hfloat
  obtain ⟨front, middle, ⟨rfl, hfront, -⟩, places, _, hplaces, _, _, ⟨hsome, -⟩, -⟩ := hfloat
  cases front with
  | cons first others =>
    have hdigit : isDecimalDigit first = false := (h.head first rfl).1
    rw [hfront first List.mem_cons_self] at hdigit
    cases hdigit
  | nil =>
    simp only [takes_optional, takes_seqRight, takes_char] at hplaces
    rcases hplaces with ⟨_, -, _, _, rfl, -⟩ | ⟨-, rfl, -⟩
    · exact (h.head '.' rfl).2.1 rfl
    · exact hsome rfl

/-- A float in digits begins with a digit or a point. -/
theorem WritesDecimal.not_sign {word : Binary64} (h : WritesDecimal negative text word) :
    ∀ first ∈ text.head?, first ≠ '+' ∧ first ≠ '-' := by
  obtain ⟨front, places, point, exponent, power, rfl, hfront, hpoint, hsome, -, -⟩ := h
  cases front with
  | cons digit others =>
    rintro _ ⟨⟩
    exact not_sign_of_digits hfront digit rfl
  | nil =>
    cases hpoint with
    | bare => exact absurd rfl hsome
    | point =>
      rintro _ ⟨⟩
      decide

/-- A float is read from the texts that write it. -/
theorem float?_eq_some {text : String} {word : Binary64} :
    float? text = some word ↔ WritesFloat text word := by
  simp only [float?, whole_eq_some, takes_bind, takes_orElse, takes_floatDigits, takes_floatName]
  have hsign : ∀ {negative form}, WritesDecimal negative form word ∨ WritesName negative form word →
      (Takes sign text.toList negative form ↔
        ∃ mark, text.toList = mark ++ form ∧ WritesSign negative mark) := by
    rintro negative form (hform | hform)
    · exact takes_sign hform.not_sign
    · exact takes_sign fun first hfirst => (hform.head first hfirst).2.2
  constructor
  · rintro ⟨negative, form, htakes, hform⟩
    have hform := hform.imp_right And.right
    obtain ⟨mark, htext, hmark⟩ := (hsign hform).1 htakes
    exact ⟨negative, mark, form, htext, hmark, hform⟩
  · rintro ⟨negative, mark, form, htext, hmark, hform⟩
    refine ⟨negative, form, (hsign hform).2 ⟨mark, htext, hmark⟩, ?_⟩
    exact hform.imp_right fun hname => ⟨hname.refuses_floatDigits, hname⟩

end AccessControl.Text
