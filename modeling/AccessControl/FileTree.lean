import AccessControl.FileText

/-!
# File trees

A tree of directories and files, and what is found where a path leads in it.  A path is followed
step by step.  Whatever a slash follows has to be a directory, and the first step that goes wrong
says why nothing is found.
-/

namespace AccessControl

/-- A file with its text, or a directory with what stands in it. -/
inductive FileTree where
  | file (text : FileText)
  | directory (entries : List (String × FileTree))

namespace FileTree

/-- The greatest number of bytes in a name. -/
def greatestName : Nat := 255

/-- The greatest number of bytes in a path. -/
def greatestPath : Nat := 4095

/-- What stands in a directory under a name. -/
def find (entries : List (String × FileTree)) (name : String) : Except FileFault FileTree :=
  if greatestName < name.utf8ByteSize then .error .nameTooLong
  else
    match entries.lookup name with
    | some tree => .ok tree
    | none => .error .missing

/-- What is found by following steps from a place, given the directories above it, the nearest one
first.  Nothing is above the topmost directory but itself. -/
def follow (place : FileTree) (above : List FileTree) : List String → Except FileFault FileTree
  | [] => .ok place
  | step :: steps =>
    match place with
    | file _ => .error .notDirectory
    | directory entries =>
      if step = "" ∨ step = "." then place.follow above steps
      else if step = ".." then
        match above with
        | [] => place.follow [] steps
        | parent :: others => parent.follow others steps
      else do (← find entries step).follow (place :: above) steps

/-- The text at a path.  A path that does not begin with a slash starts from the directory `home`,
which is given by its steps. -/
def read (root : FileTree) (home : List String) (path : String) : FileText :=
  let steps := path.splitOn "/"
  if path.toList.contains '\x00' then .error .impossibleName
  else if path.isEmpty then .error .missing
  else if greatestPath < path.utf8ByteSize then .error .nameTooLong
  else do
    match ← root.follow [] (if steps.head? = some "" then steps else home ++ steps) with
    | file text => text
    | directory _ => .error .directory

end FileTree

end AccessControl
