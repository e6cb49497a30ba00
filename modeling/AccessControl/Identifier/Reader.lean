import AccessControl.Identifier
import AccessControl.Text.Blank
import AccessControl.Text.Quoted

/-!
# Reading identifiers

An identifier is read from 32 digits without hyphens, from the written form with its four hyphens,
and from the written form between braces or behind `urn:uuid:`; digits of either case are read.
Of any other text the reader says what is wrong with it: a character that does not belong there, a
wrong length, a wrong number of groups, or a group of the wrong size.
-/

namespace AccessControl

/-- What is wrong with a text that is no identifier. -/
inductive IdentifierFault where
  /-- A character that stands for no digit, and the place of its first byte. -/
  | character (found : Char) (place : Nat)
  /-- The number of bytes is that of no accepted form. -/
  | length (found : Nat)
  /-- The text has another number of groups than five. -/
  | groupCount (found : Nat)
  /-- A group, counted from zero, has the wrong number of digits. -/
  | groupSize (group expected found : Nat)
  deriving DecidableEq, Repr

/-- What is said about a text that is no identifier. -/
def IdentifierFault.message : IdentifierFault → String
  | .character found place =>
    "invalid character: found `" ++ String.singleton found ++ "` at " ++ toString place
  | .length found => "invalid length: found " ++ toString found
  | .groupCount found => "invalid group count: expected 5, found " ++ toString found
  | .groupSize group expected found =>
    "invalid group length in group " ++ toString group ++ ": expected " ++ toString expected ++
      ", found " ++ toString found

namespace Identifier

/-- How many bytes a text has in UTF-8. -/
def byteCount (text : List Char) : Nat := (text.map Char.utf8Size).foldr (· + ·) 0

/-- The values of the digits of a text, if it has digits only. -/
def hexValues? : List Char → Option (List Nat)
  | [] => some []
  | c :: rest => do
    let digit ← Text.hexValue? c
    let digits ← hexValues? rest
    return digit :: digits

/-- The values of the digits of a text in groups of the given sizes, with a hyphen between two
groups. -/
def readGroups? : List Nat → List Char → Option (List Nat)
  | [], text => if text.isEmpty then some [] else none
  | [size], text => if text.length = size then hexValues? text else none
  | size :: sizes, text =>
    match text.drop size with
    | '-' :: rest => do
      let group ← hexValues? (text.take size)
      let groups ← readGroups? sizes rest
      return group ++ groups
    | _ => none

/-- The identifier written with its four hyphens. -/
def readHyphenated? (text : List Char) : Option Identifier :=
  (readGroups? groupSizes text).map fun digits => ofNat (Text.ofDigits 16 digits)

/-- The identifier written as 32 digits. -/
def readPlain? (text : List Char) : Option Identifier :=
  (readGroups? [32] text).map fun digits => ofNat (Text.ofDigits 16 digits)

/-- What stands before an identifier that is written as a name. -/
def urnMark : List Char := ['u', 'r', 'n', ':', 'u', 'u', 'i', 'd', ':']

/-- What stands between braces, if the text begins and ends with one. -/
def betweenBraces? (text : List Char) : Option (List Char) :=
  match text with
  | '\x7b' :: rest => if rest.getLast? = some '\x7d' then some rest.dropLast else none
  | _ => none

/-- What stands behind the mark `urn:uuid:`, if the text begins with it. -/
def afterUrnMark? (text : List Char) : Option (List Char) :=
  if urnMark.isPrefixOf text then some (text.drop urnMark.length) else none

/-- The part of a text that has to be a hyphenated form, chosen by the text's length and what
encloses it, together with whether the text was so enclosed. -/
def enclosed? (text : List Char) : Option (List Char) :=
  let bytes := byteCount text
  if bytes = 36 then some text
  else if bytes = 38 then betweenBraces? text
  else if bytes = 45 then afterUrnMark? text
  else none

/-- The identifier a text stands for, if it has one of the accepted forms. -/
def read? (text : List Char) : Option Identifier :=
  match enclosed? text with
  | some inner => readHyphenated? inner
  | none => readPlain? text

/-- The hyphens of a text by their places in bytes, or the first character that is neither a hyphen
nor a digit and its place. -/
def hyphenPlaces : Nat → List Char → Except (Char × Nat) (List Nat)
  | _, [] => .ok []
  | place, c :: rest =>
    if c = '-' then (hyphenPlaces (place + 1) rest).map (place :: ·)
    else if (Text.hexValue? c).isSome then hyphenPlaces (place + 1) rest
    else .error (c, place)

/-- The first group that does not end where it should.  A group is given by its number, the place
where it begins and the place where it should end. -/
def misplacedGroup? : List (Nat × Nat × Nat) → List Nat → Option IdentifierFault
  | (group, start, stop) :: groups, place :: places =>
    if place = stop then misplacedGroup? groups places
    else some (.groupSize group (stop - start) (place - start))
  | _, _ => none

/-- The groups of the hyphenated form that end with a hyphen. -/
def groupPlaces : List (Nat × Nat × Nat) := [(0, 0, 8), (1, 9, 13), (2, 14, 18), (3, 19, 23)]

/-- What is wrong with a text that has the shape of a hyphenated form of `bytes` bytes, given what
is scanned of it and the place where that begins. -/
def faultOfScan (bytes start : Nat) (hyphensWanted : Bool) (scanned : List Char) :
    IdentifierFault :=
  match hyphenPlaces 0 scanned with
  | .error (found, place) => .character found (place + start)
  | .ok [] => if hyphensWanted then .groupCount 1 else .length bytes
  | .ok places =>
    if places.length ≠ 4 then .groupCount (places.length + 1)
    else (misplacedGroup? groupPlaces places).getD (.groupSize 4 12 (bytes - 24))

/-- What is wrong with a text that has none of the accepted forms. -/
def faultOf (text : List Char) : IdentifierFault :=
  match enclosed? text with
  | some inner =>
    let bytes := byteCount inner
    if bytes = 0 ∨ 45 < bytes then .length bytes else faultOfScan bytes 0 true inner
  | none =>
    let bytes := byteCount text
    if bytes = 0 ∨ 45 < bytes then .length bytes
    else
      match betweenBraces? text with
      | some inner => faultOfScan bytes 1 true inner
      | none =>
        match afterUrnMark? text with
        | some inner => faultOfScan bytes urnMark.length true inner
        | none => faultOfScan bytes 0 false text

/-- The identifier a text stands for, or what is wrong with the text. -/
def read (text : String) : Except IdentifierFault Identifier :=
  match read? text.toList with
  | some id => .ok id
  | none => .error (faultOf text.toList)

end Identifier

/-- A text given for an identifier that is none. -/
structure InvalidIdentifier where
  input : String
  reason : String
  deriving DecidableEq, Repr

/-- What is said about a text given for an identifier. -/
def InvalidIdentifier.message (error : InvalidIdentifier) : String :=
  "invalid identifier " ++ Text.quoted error.input ++ ": " ++ error.reason

/-- The resource that a text from a request stands for; blanks around the identifier do not
count. -/
def ResourceId.ofText (input : String) : Except InvalidIdentifier ResourceId :=
  match Identifier.read (String.ofList (Text.trimBlanks input.toList)) with
  | .ok id => .ok ⟨id⟩
  | .error fault => .error ⟨input, fault.message⟩

end AccessControl
