import AccessControl.Fixture
import Mathlib.Algebra.Order.Ring.Nat
import Mathlib.Data.List.Induction
import Mathlib.Data.List.TakeWhile

/-!
# What identifiers are read

An identifier is written as its 32 digits, with four hyphens between them, or so between braces or
behind `urn:uuid:`.  The digits are of either case, and blanks may stand at both ends.  A text is read
as the identifier that it spells in one of these forms, and any other text is refused.
-/

namespace AccessControl

namespace Text

variable {c : Char} {digit count n : Nat} {digits : List Nat}

/-! ## Digits -/

/-- A digit has its value in either case. -/
theorem hexValue?_toUpper (c : Char) : hexValue? c.toUpper = hexValue? c := by
  simp only [hexValue?, toNat_toUpper]
  grind

theorem hexValue?_hexChar (h : digit < 16) : hexValue? (hexChar digit) = some digit := by
  have hall : ∀ digit < 16, hexValue? (hexChar digit) = some digit := by decide
  exact hall digit h

theorem toNat_toUpper_hexChar (h : digit < 16) :
    (hexChar digit).toUpper.toNat = if digit < 10 then 48 + digit else 55 + digit := by
  have hall : ∀ digit < 16, (hexChar digit).toUpper.toNat =
      if digit < 10 then 48 + digit else 55 + digit := by decide
  exact hall digit h

/-- A character has the value of a digit if it is that digit up to letter case. -/
theorem hexValue?_eq_some :
    hexValue? c = some digit ↔ digit < 16 ∧ c.toUpper = (hexChar digit).toUpper := by
  constructor
  · intro h
    have hsmall : digit < 16 := by
      simp only [hexValue?] at h
      grind
    refine ⟨hsmall, Char.toNat_inj.1 ?_⟩
    rw [toNat_toUpper_hexChar hsmall, toNat_toUpper]
    simp only [hexValue?] at h
    grind
  · intro ⟨hsmall, hsame⟩
    rw [← hexValue?_toUpper, hsame, hexValue?_toUpper, hexValue?_hexChar hsmall]

theorem length_hexDigits : (hexDigits count n).length = count := by
  induction count generalizing n with
  | zero => rfl
  | succ count ih => simp [hexDigits, ih]

theorem lt_of_mem_hexDigits (h : digit ∈ hexDigits count n) : digit < 16 := by
  induction count generalizing n with
  | zero => cases h
  | succ count ih =>
    rw [hexDigits, List.mem_append, List.mem_singleton] at h
    rcases h with hrest | rfl
    · exact ih hrest
    · exact Nat.mod_lt n (by decide)

theorem ofDigits_append_singleton {base : Nat} :
    ofDigits base (digits ++ [digit]) = ofDigits base digits * base + digit := by
  simp [ofDigits]

/-- The digits of a number stand for it, as far as they go. -/
theorem ofDigits_hexDigits : ofDigits 16 (hexDigits count n) = n % 16 ^ count := by
  induction count generalizing n with
  | zero => simp [hexDigits, ofDigits, Nat.mod_one]
  | succ count ih =>
    rw [hexDigits, ofDigits_append_singleton, ih, Nat.pow_succ, Nat.mul_comm (16 ^ count),
      Nat.mod_mul]
    omega

/-- Digits are those of the number for which they stand. -/
theorem hexDigits_ofDigits (h : ∀ digit ∈ digits, digit < 16) :
    hexDigits digits.length (ofDigits 16 digits) = digits := by
  induction digits using List.reverseRecOn with
  | nil => rfl
  | append_singleton rest last ih =>
    rw [List.forall_mem_append] at h
    have hlast : last < 16 := h.2 last (List.mem_singleton_self last)
    have hquotient : (ofDigits 16 rest * 16 + last) / 16 = ofDigits 16 rest := by omega
    have hremainder : (ofDigits 16 rest * 16 + last) % 16 = last := by omega
    rw [ofDigits_append_singleton, List.length_append, List.length_singleton, hexDigits,
      hquotient, hremainder, ih h.1]

theorem ofDigits_lt (h : ∀ digit ∈ digits, digit < 16) :
    ofDigits 16 digits < 16 ^ digits.length := by
  have hsame := hexDigits_ofDigits h
  have hvalue : ofDigits 16 digits = ofDigits 16 digits % 16 ^ digits.length := by
    rw [← ofDigits_hexDigits, hsame]
  rw [hvalue]
  exact Nat.mod_lt _ (Nat.pow_pos (by decide))

/-! ## Blanks -/

theorem dropWhile_isBlank {text : List Char} (h : ∀ c ∈ text, isBlank c = false) :
    text.dropWhile isBlank = text := by
  cases text with
  | nil => rfl
  | cons c rest => simp [h c List.mem_cons_self]

/-- Blanks at both ends do not count. -/
theorem trimBlanks_append {left form right : List Char} (hleft : ∀ c ∈ left, isBlank c = true)
    (hform : ∀ c ∈ form, isBlank c = false) (hright : ∀ c ∈ right, isBlank c = true) :
    trimBlanks (left ++ form ++ right) = form := by
  have hback : (form ++ right).reverse.dropWhile isBlank = form.reverse := by
    rw [List.reverse_append, List.dropWhile_append_of_pos (by simpa using hright)]
    exact dropWhile_isBlank (by simpa using hform)
  have hfront : (form ++ right).dropWhile isBlank = form ++ right ∨ form = [] := by
    cases form with
    | nil => exact .inr rfl
    | cons c rest => simp [hform c List.mem_cons_self]
  rw [trimBlanks, List.append_assoc, List.dropWhile_append_of_pos hleft]
  rcases hfront with hkept | rfl
  · rw [hkept, hback, List.reverse_reverse]
  · rw [List.nil_append, List.dropWhile_eq_nil_iff.2 hright]
    rfl

theorem exists_trimBlanks (text : List Char) : ∃ left right,
    text = left ++ trimBlanks text ++ right ∧ (∀ c ∈ left, isBlank c = true) ∧
      ∀ c ∈ right, isBlank c = true := by
  refine ⟨text.takeWhile isBlank,
    ((text.dropWhile isBlank).reverse.takeWhile isBlank).reverse, ?_, ?_, ?_⟩
  · rw [List.append_assoc, trimBlanks, ← List.reverse_append, List.takeWhile_append_dropWhile,
      List.reverse_reverse, List.takeWhile_append_dropWhile]
  · exact fun c hmem => List.mem_takeWhile_imp hmem
  · intro c hmem
    exact List.mem_takeWhile_imp (List.mem_reverse.1 hmem)

end Text

namespace Identifier

variable {id : Identifier} {text form : List Char} {digits : List Nat} {sizes : List Nat}

/-! ## Groups of digits -/

/-- Digits written in lower case. -/
def written (digits : List Nat) : List Char := digits.map Text.hexChar

/-- Whether two texts are equal up to letter case. -/
def SameText (left right : List Char) : Prop := left.map Char.toUpper = right.map Char.toUpper

theorem hexValues?_eq_some : hexValues? text = some digits ↔
    (∀ digit ∈ digits, digit < 16) ∧ SameText text (written digits) := by
  induction text generalizing digits with
  | nil =>
    cases digits <;> simp [hexValues?, SameText, written]
  | cons c rest ih =>
    cases digits with
    | nil => simp [hexValues?, SameText, written, Option.bind_eq_some_iff]
    | cons digit others =>
      have hhead : hexValues? (c :: rest) = some (digit :: others) ↔
          Text.hexValue? c = some digit ∧ hexValues? rest = some others := by
        simp [hexValues?, Option.bind_eq_some_iff]
      rw [hhead, ih, Text.hexValue?_eq_some, List.forall_mem_cons]
      simp only [SameText, written, List.map_cons, List.cons.injEq]
      tauto

theorem SameText.length (h : SameText text form) : text.length = form.length := by
  simpa using congrArg List.length h

theorem toUpper_eq_hyphen {c : Char} : c.toUpper = '-' ↔ c = '-' := by
  rw [← Char.toNat_inj, ← Char.toNat_inj, Text.toNat_toUpper]
  have hhyphen : '-'.toNat = 45 := rfl
  grind

/-- A text agrees with a group and what follows behind a hyphen if it has the two in this order. -/
theorem sameText_group {group rest : List Char} : SameText text (group ++ '-' :: rest) ↔
    ∃ front back, text = front ++ '-' :: back ∧ SameText front group ∧ SameText back rest := by
  simp only [SameText, List.map_append, List.map_cons]
  constructor
  · intro h
    obtain ⟨front, tail, rfl, hfront, htail⟩ := List.map_eq_append_iff.1 h
    obtain ⟨hyphen, back, rfl, hhyphen, hback⟩ := List.map_eq_cons_iff.1 htail
    obtain rfl := toUpper_eq_hyphen.1 hhyphen
    exact ⟨front, back, rfl, hfront, hback⟩
  · rintro ⟨front, back, rfl, hfront, hback⟩
    rw [List.map_append, List.map_cons, hfront, hback]

/-- The reader takes a group of the given size up to the hyphen behind it. -/
theorem readGroups?_cons_eq_some {size next : Nat} : readGroups? (size :: next :: sizes) text =
      some digits ↔
    ∃ front back group others, text = front ++ '-' :: back ∧ front.length = size ∧
      hexValues? front = some group ∧ readGroups? (next :: sizes) back = some others ∧
      digits = group ++ others := by
  simp only [readGroups?]
  constructor
  · intro h
    split at h
    case h_1 back hdrop =>
      obtain ⟨group, hgroup, hrest⟩ := Option.bind_eq_some_iff.1 h
      obtain ⟨others, hothers, hdigits⟩ := Option.bind_eq_some_iff.1 hrest
      refine ⟨text.take size, back, group, others, ?_, ?_, hgroup, hothers,
        (Option.some.inj hdigits).symm⟩
      · rw [← hdrop, List.take_append_drop]
      · have hlength := congrArg List.length hdrop
        simp only [List.length_drop, List.length_cons] at hlength
        rw [List.length_take]
        omega
    case h_2 => cases h
  · rintro ⟨front, back, group, others, rfl, rfl, hgroup, hothers, rfl⟩
    rw [List.drop_left, List.take_left]
    simp [hgroup, hothers]

/-- A text is read in groups of digits if it has them with hyphens between the groups. -/
theorem readGroups?_eq_some (hsizes : sizes ≠ []) : readGroups? sizes text = some digits ↔
    digits.length = sizes.sum ∧ (∀ digit ∈ digits, digit < 16) ∧
      SameText text (hyphenate sizes (written digits)) := by
  induction sizes generalizing text digits with
  | nil => exact absurd rfl hsizes
  | cons size rest ih =>
    cases rest with
    | nil =>
      have hread : readGroups? [size] text = some digits ↔
          text.length = size ∧ hexValues? text = some digits := by
        rw [readGroups?]
        split <;> simp [*]
      rw [hread, hexValues?_eq_some, hyphenate, List.sum_singleton]
      constructor
      · intro ⟨hlength, hsmall, hsame⟩
        have hdigits : digits.length = size := by
          rw [← hlength, hsame.length, written, List.length_map]
        refine ⟨hdigits, hsmall, ?_⟩
        rwa [List.take_of_length_le (by simp [written, hdigits])]
      · intro ⟨hdigits, hsmall, hsame⟩
        rw [List.take_of_length_le (by simp [written, hdigits])] at hsame
        refine ⟨?_, hsmall, hsame⟩
        rw [hsame.length, written, List.length_map, hdigits]
    | cons next rest =>
      simp only [readGroups?_cons_eq_some, hyphenate, sameText_group]
      constructor
      · rintro ⟨front, back, group, others, rfl, rfl, hgroup, hothers, rfl⟩
        obtain ⟨hgroupSmall, hgroupSame⟩ := hexValues?_eq_some.1 hgroup
        obtain ⟨hlength, hothersSmall, hothersSame⟩ := (ih (by simp)).1 hothers
        have hsize : front.length = (written group).length := hgroupSame.length
        have hsplit : written (group ++ others) = written group ++ written others :=
          List.map_append
        refine ⟨?_, List.forall_mem_append.2 ⟨hgroupSmall, hothersSmall⟩, front, back, rfl, ?_, ?_⟩
        · rw [List.length_append, hlength, hsize, written, List.length_map, ← List.sum_cons]
        · rwa [hsplit, hsize, List.take_left]
        · rwa [hsplit, hsize, List.drop_left]
      · rintro ⟨hlength, hsmall, front, back, rfl, hfront, hback⟩
        rw [List.sum_cons] at hlength
        have htake : (written digits).take size = written (digits.take size) := List.map_take.symm
        have hdrop : (written digits).drop size = written (digits.drop size) := List.map_drop.symm
        rw [htake] at hfront
        rw [hdrop] at hback
        refine ⟨front, back, digits.take size, digits.drop size, rfl, ?_, ?_, ?_,
          (List.take_append_drop size digits).symm⟩
        · rw [hfront.length, written, List.length_map, List.length_take]
          omega
        · exact hexValues?_eq_some.2
            ⟨fun digit hmem => hsmall digit (List.mem_of_mem_take hmem), hfront⟩
        · refine (ih (by simp)).2
            ⟨?_, fun digit hmem => hsmall digit (List.mem_of_mem_drop hmem), hback⟩
          rw [List.length_drop]
          omega

theorem length_digits : id.digits.length = 32 := by
  rw [digits, List.length_map, Text.length_hexDigits]

theorem text_toList : id.text.toList = hyphenate groupSizes id.digits := String.toList_ofList

/-- An identifier has as many values as its digits. -/
theorem pow_sixteen : 16 ^ 32 = 2 ^ 128 := by decide

/-- An identifier is read from its own digits, in groups of any sizes. -/
theorem ofGroups_eq_some (hsizes : sizes ≠ []) (hsum : sizes.sum = 32) :
    (readGroups? sizes text).map (fun digits => ofNat (Text.ofDigits 16 digits)) = some id ↔
      SameText text (hyphenate sizes id.digits) := by
  rw [Option.map_eq_some_iff]
  constructor
  · rintro ⟨digits, hdigits, rfl⟩
    obtain ⟨hlength, hsmall, hsame⟩ := (readGroups?_eq_some hsizes).1 hdigits
    rw [hsum] at hlength
    have hfits : Text.ofDigits 16 digits < 2 ^ 128 := by
      have hlt := Text.ofDigits_lt hsmall
      rwa [hlength, pow_sixteen] at hlt
    have hown : (ofNat (Text.ofDigits 16 digits)).digits = written digits := by
      have hdigits := Text.hexDigits_ofDigits hsmall
      rw [hlength] at hdigits
      rw [Identifier.digits, ofNat, BitVec.toNat_ofNat, Nat.mod_eq_of_lt hfits, hdigits, written]
    rw [hown]
    exact hsame
  · intro hsame
    refine ⟨Text.hexDigits 32 id.bits.toNat, (readGroups?_eq_some hsizes).2 ⟨?_, ?_, hsame⟩, ?_⟩
    · rw [Text.length_hexDigits, hsum]
    · exact fun digit hmem => Text.lt_of_mem_hexDigits hmem
    · rw [Text.ofDigits_hexDigits, pow_sixteen, Nat.mod_eq_of_lt id.bits.isLt, ofNat,
        BitVec.ofNat_toNat, BitVec.setWidth_eq]

theorem readHyphenated?_eq_some : readHyphenated? text = some id ↔ SameText text id.text.toList := by
  rw [text_toList]
  exact ofGroups_eq_some (by decide) (by decide)

theorem hyphenate_digits : hyphenate [32] id.digits = id.digits :=
  List.take_of_length_le length_digits.le

theorem readPlain?_eq_some : readPlain? text = some id ↔ SameText text id.digits := by
  have hgroups : readPlain? text = some id ↔ SameText text (hyphenate [32] id.digits) :=
    ofGroups_eq_some (by decide) (by decide)
  rwa [hyphenate_digits] at hgroups

/-! ## The accepted forms -/

/-- The forms in which an identifier is written, with digits of either case. -/
inductive WrittenAs (id : Identifier) : List Char → Prop
  | plain {form : List Char} (h : SameText form id.digits) : WrittenAs id form
  | hyphenated {form : List Char} (h : SameText form id.text.toList) : WrittenAs id form
  | braced {form : List Char} (h : SameText form id.text.toList) :
    WrittenAs id ('\x7b' :: form ++ ['\x7d'])
  | urn {form : List Char} (h : SameText form id.text.toList) : WrittenAs id (urnMark ++ form)

/-- A character that stands for a digit, or a hyphen. -/
def Plain (c : Char) : Prop := c = '-' ∨ ∃ digit, Text.hexValue? c = some digit

theorem mem_hyphenate {c : Char} (h : c ∈ hyphenate sizes text) : c = '-' ∨ c ∈ text := by
  induction sizes generalizing text with
  | nil => cases h
  | cons size rest ih =>
    cases rest with
    | nil => exact .inr (List.mem_of_mem_take h)
    | cons next rest =>
      rw [hyphenate, List.mem_append, List.mem_cons] at h
      rcases h with hfront | rfl | hback
      · exact .inr (List.mem_of_mem_take hfront)
      · exact .inl rfl
      · exact (ih hback).imp_right List.mem_of_mem_drop
      · exact List.cons_ne_nil _ _

theorem Plain.of_sameText (h : SameText text (hyphenate sizes id.digits)) :
    ∀ c ∈ text, Plain c := by
  intro c hmem
  have hupper : c.toUpper ∈ (hyphenate sizes id.digits).map Char.toUpper := by
    rw [← h]
    exact List.mem_map_of_mem hmem
  obtain ⟨other, hother, hsame⟩ := List.mem_map.1 hupper
  rcases mem_hyphenate hother with rfl | hdigit
  · exact .inl (toUpper_eq_hyphen.1 hsame.symm)
  · rw [digits, List.mem_map] at hdigit
    obtain ⟨digit, hdigit, rfl⟩ := hdigit
    exact .inr ⟨digit, Text.hexValue?_eq_some.2 ⟨Text.lt_of_mem_hexDigits hdigit, hsame.symm⟩⟩

theorem Plain.of_digits (h : SameText text id.digits) : ∀ c ∈ text, Plain c := by
  rw [← hyphenate_digits] at h
  exact of_sameText h

theorem Plain.of_text (h : SameText text id.text.toList) : ∀ c ∈ text, Plain c := by
  rw [text_toList] at h
  exact of_sameText h

theorem Plain.toNat_le {c : Char} (h : Plain c) : 45 ≤ c.toNat ∧ c.toNat ≤ 102 := by
  rcases h with rfl | ⟨digit, hdigit⟩
  · decide
  · simp only [Text.hexValue?] at hdigit
    grind

theorem Plain.not_isBlank {c : Char} (h : Plain c) : Text.isBlank c = false := by
  have hrange := h.toNat_le
  simp only [Text.isBlank, Bool.or_eq_false_iff, Bool.and_eq_false_iff, decide_eq_false_iff_not]
  omega

theorem Plain.utf8Size {c : Char} (h : Plain c) : c.utf8Size = 1 := by
  have hsmall : c.toNat ≤ 127 := h.toNat_le.2.trans (by decide)
  exact Char.utf8Size_eq_one_iff.2 hsmall

theorem byteCount_cons {c : Char} : byteCount (c :: text) = c.utf8Size + byteCount text := rfl

theorem byteCount_append {rest : List Char} :
    byteCount (text ++ rest) = byteCount text + byteCount rest := by
  induction text with
  | nil => simp [byteCount]
  | cons c others ih =>
    rw [List.cons_append, byteCount_cons, byteCount_cons, ih, Nat.add_assoc]

theorem byteCount_of_plain (h : ∀ c ∈ text, Plain c) : byteCount text = text.length := by
  induction text with
  | nil => rfl
  | cons c rest ih =>
    rw [List.forall_mem_cons] at h
    rw [byteCount_cons, h.1.utf8Size, ih h.2, List.length_cons, Nat.add_comm]

theorem length_groups : (hyphenate groupSizes id.digits).length = 36 := by
  simp [groupSizes, hyphenate, length_digits]

/-- The number of bytes tells the hyphenated form, the two enclosed ones and the digits alone
apart. -/
theorem byteCount_text (h : SameText text id.text.toList) : byteCount text = 36 := by
  rw [byteCount_of_plain (Plain.of_text h), h.length, text_toList, length_groups]

theorem byteCount_digits (h : SameText text id.digits) : byteCount text = 32 := by
  rw [byteCount_of_plain (Plain.of_digits h), h.length, length_digits]

theorem betweenBraces?_eq_some : betweenBraces? text = some form ↔
    text = '\x7b' :: form ++ ['\x7d'] := by
  unfold betweenBraces?
  constructor
  · intro h
    split at h
    case h_1 rest =>
      split at h
      case isTrue hlast =>
        obtain ⟨inner, rfl⟩ := List.getLast?_eq_some_iff.1 hlast
        rw [List.dropLast_concat] at h
        rw [Option.some.inj h, List.cons_append]
      case isFalse => cases h
    case h_2 => cases h
  · rintro rfl
    simp

theorem afterUrnMark?_eq_some : afterUrnMark? text = some form ↔ text = urnMark ++ form := by
  rw [afterUrnMark?]
  constructor
  · intro h
    split at h
    case isTrue hmark =>
      obtain ⟨rest, rfl⟩ := List.isPrefixOf_iff_prefix.1 hmark
      rw [List.drop_left] at h
      rw [Option.some.inj h]
    case isFalse => cases h
  · rintro rfl
    rw [if_pos (List.isPrefixOf_iff_prefix.2 ⟨form, rfl⟩), List.drop_left]

/-- A text is read as the identifier that is written in it in one of the forms. -/
theorem read?_eq_some : read? text = some id ↔ id.WrittenAs text := by
  rw [read?]
  constructor
  · intro h
    split at h
    case h_1 inner hinner =>
      have hform := readHyphenated?_eq_some.1 h
      simp only [enclosed?] at hinner
      split at hinner
      · obtain rfl := Option.some.inj hinner
        exact .hyphenated hform
      · split at hinner
        · obtain rfl := betweenBraces?_eq_some.1 hinner
          exact .braced hform
        · split at hinner
          · obtain rfl := afterUrnMark?_eq_some.1 hinner
            exact .urn hform
          · cases hinner
    case h_2 => exact .plain (readPlain?_eq_some.1 h)
  · intro h
    cases h with
    | plain h =>
      have henclosed : enclosed? text = none := by
        rw [enclosed?, byteCount_digits h]
        rfl
      rw [henclosed]
      exact readPlain?_eq_some.2 h
    | hyphenated h =>
      have henclosed : enclosed? text = some text := by
        rw [enclosed?, byteCount_text h]
        rfl
      rw [henclosed]
      exact readHyphenated?_eq_some.2 h
    | @braced form h =>
      have henclosed : enclosed? ('\x7b' :: form ++ ['\x7d']) = some form := by
        rw [enclosed?, List.cons_append, byteCount_cons, byteCount_append, byteCount_text h]
        exact betweenBraces?_eq_some.2 rfl
      rw [henclosed]
      exact readHyphenated?_eq_some.2 h
    | @urn form h =>
      have henclosed : enclosed? (urnMark ++ form) = some form := by
        rw [enclosed?, byteCount_append, byteCount_text h]
        exact afterUrnMark?_eq_some.2 rfl
      rw [henclosed]
      exact readHyphenated?_eq_some.2 h

/-- No form of an identifier has a blank in it. -/
theorem WrittenAs.not_isBlank (h : id.WrittenAs text) : ∀ c ∈ text, Text.isBlank c = false := by
  cases h with
  | plain h => exact fun c hmem => (Plain.of_digits h c hmem).not_isBlank
  | hyphenated h => exact fun c hmem => (Plain.of_text h c hmem).not_isBlank
  | braced h =>
    rw [List.cons_append, List.forall_mem_cons, List.forall_mem_append]
    refine ⟨by decide, fun c hmem => (Plain.of_text h c hmem).not_isBlank, ?_⟩
    exact List.forall_mem_singleton.2 (by decide)
  | urn h =>
    rw [List.forall_mem_append]
    refine ⟨?_, fun c hmem => (Plain.of_text h c hmem).not_isBlank⟩
    simp [urnMark, Text.isBlank]

/-- Whether the text is one of the forms of the identifier, perhaps with blanks around it. -/
def SpelledBy (id : Identifier) (text : String) : Prop :=
  ∃ left form right, text.toList = left ++ form ++ right ∧ id.WrittenAs form ∧
    (∀ c ∈ left, Text.isBlank c = true) ∧ ∀ c ∈ right, Text.isBlank c = true

end Identifier

/-- A text is read as the resource whose identifier it spells. -/
theorem ResourceId.ofText_eq_ok {text : String} {resource : ResourceId} :
    ofText text = .ok resource ↔ resource.id.SpelledBy text := by
  have hread : ofText text = .ok resource ↔
      resource.id.WrittenAs (Text.trimBlanks text.toList) := by
    rw [← Identifier.read?_eq_some, ofText, Identifier.read, String.toList_ofList]
    cases Identifier.read? (Text.trimBlanks text.toList) with
    | none => simp
    | some id =>
      simp only [Except.ok.injEq, Option.some.injEq]
      exact ⟨fun h => by rw [← h], fun h => by rw [h]⟩
  rw [hread]
  constructor
  · intro hform
    obtain ⟨left, right, hsplit, hleft, hright⟩ := Text.exists_trimBlanks text.toList
    exact ⟨left, _, right, hsplit, hform, hleft, hright⟩
  · rintro ⟨left, form, right, hsplit, hform, hleft, hright⟩
    rwa [hsplit, Text.trimBlanks_append hleft hform.not_isBlank hright]

namespace Fixture

variable {text : String}

theorem readResource_eq_ok {resource : ResourceId} :
    readResource text = .ok resource ↔ resource.id.SpelledBy text := by
  rw [← ResourceId.ofText_eq_ok, readResource]
  cases ResourceId.ofText text <;> simp [Except.mapError]

theorem readUser_eq_ok {user : UserId} : readUser text = .ok user ↔ user.id.SpelledBy text := by
  have hresource : readResource text = .ok ⟨user.id⟩ ↔ user.id.SpelledBy text :=
    readResource_eq_ok
  rw [← hresource, readUser]
  cases readResource text with
  | error error => simp [Except.map]
  | ok resource =>
    simp only [Except.map, Except.ok.injEq]
    exact ⟨fun h => by rw [← h], fun h => by rw [h]⟩

end Fixture

end AccessControl
