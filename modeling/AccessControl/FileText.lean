/-!
# Texts of files

What is found where a file is looked for: its text, or the reason why there is none.
-/

namespace AccessControl

/-- Why the text of a file is not to be had. -/
inductive FileFault where
  | missing
  | directory
  /-- A step on the way to the file is itself no directory. -/
  | notDirectory
  | forbidden
  | nameTooLong
  /-- The path holds a character that no name can hold. -/
  | impossibleName
  | notText
  deriving DecidableEq, Repr

/-- What is said about a file whose text is not to be had. -/
def FileFault.message : FileFault → String
  | .missing => "No such file or directory (os error 2)"
  | .directory => "Is a directory (os error 21)"
  | .notDirectory => "Not a directory (os error 20)"
  | .forbidden => "Permission denied (os error 13)"
  | .nameTooLong => "File name too long (os error 36)"
  | .impossibleName => "file name contained an unexpected NUL byte"
  | .notText => "stream did not contain valid UTF-8"

/-- The text of a file that was looked for. -/
abbrev FileText := Except FileFault String

/-- The text that the bytes of a file stand for. -/
def FileText.ofBytes (bytes : ByteArray) : FileText :=
  match String.fromUTF8? bytes with
  | some text => .ok text
  | none => .error .notText

end AccessControl
