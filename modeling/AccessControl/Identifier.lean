import AccessControl.Text.Digit

/-!
# Identifiers

An identifier is a number of 128 bits.  It is written as 32 hexadecimal digits in five groups of 8,
4, 4, 4 and 12 digits.  Identifiers are ordered as numbers, which is also the order of their written
forms.
-/

namespace AccessControl

/-- A number of 128 bits. -/
@[ext] structure Identifier where
  bits : BitVec 128
  deriving DecidableEq, Repr

namespace Identifier

instance : LT Identifier := ⟨fun left right => left.bits < right.bits⟩

instance : LE Identifier := ⟨fun left right => left.bits ≤ right.bits⟩

instance (left right : Identifier) : Decidable (left < right) :=
  inferInstanceAs (Decidable (left.bits < right.bits))

instance (left right : Identifier) : Decidable (left ≤ right) :=
  inferInstanceAs (Decidable (left.bits ≤ right.bits))

/-- The number of the lowest 128 bits of `n`. -/
def ofNat (n : Nat) : Identifier := ⟨BitVec.ofNat 128 n⟩

/-- The 32 digits of an identifier. -/
def digits (id : Identifier) : List Char := (Text.hexDigits 32 id.bits.toNat).map Text.hexChar

/-- How many digits stand in each group of the written form. -/
def groupSizes : List Nat := [8, 4, 4, 4, 12]

/-- A text cut into groups of the given sizes, with a hyphen between two groups. -/
def hyphenate : List Nat → List Char → List Char
  | [], _ => []
  | [size], text => text.take size
  | size :: sizes, text => text.take size ++ '-' :: hyphenate sizes (text.drop size)

/-- The written form of an identifier. -/
def text (id : Identifier) : String := String.ofList (hyphenate groupSizes id.digits)

end Identifier

/-- The identifier of a user. -/
structure UserId where
  id : Identifier
  deriving DecidableEq, Repr

/-- The identifier of a resource. -/
structure ResourceId where
  id : Identifier
  deriving DecidableEq, Repr

/-- The written form of a user's identifier. -/
def UserId.text (user : UserId) : String := user.id.text

/-- The written form of a resource's identifier. -/
def ResourceId.text (resource : ResourceId) : String := resource.id.text

end AccessControl
