import BlockPainting.Text.Reading

/-!
# Paths

A path is read part by part. Empty parts lead nowhere, `.` stays in place and `..` leads one folder
up; a slash at the end asks for a folder.
-/

namespace BlockPainting.CommandLine

inductive FileError where
  | missing
  | notFolder
  | isFolder
  | noSpace
  | longName
  deriving DecidableEq

namespace FileError

def number : FileError → Nat
  | missing => 2
  | notFolder => 20
  | isFolder => 21
  | noSpace => 28
  | longName => 36

def ofNumber? (n : Nat) : Option FileError :=
  [missing, notFolder, isFolder, noSpace, longName].find? fun e => e.number = n

def words : FileError → String
  | missing => "No such file or directory"
  | notFolder => "Not a directory"
  | isFolder => "Is a directory"
  | noSpace => "No space left on device"
  | longName => "File name too long"

/-- The message for a file that cannot be read or written. -/
def message (e : FileError) : String :=
  s!"{e.words} (os error {e.number})"

end FileError

def maxName : Nat := 255

def maxPath : Nat := 4095

def pathSteps (path : String) : List String :=
  ((Text.fields '/' path.toList).map String.ofList).filter (· ≠ "")

/-- The parts of a path that do not stay in place. -/
def pathParts (path : String) : List String :=
  (pathSteps path).filter (· ≠ ".")

/-- Whether a path begins at the root of all folders. -/
def isAbsolute (path : String) : Bool :=
  path.toList.head? = some '/'

/-- Whether a path asks for a folder by a slash at its end. -/
def asksForFolder (path : String) : Bool :=
  path.toList.getLast? = some '/'

/-- The last part of a path, if it names a file. -/
def fileName (path : String) : Option String :=
  (pathParts path).getLast?.bind fun name => if name = ".." then none else some name

/-- What follows the last point of a file name that does not begin with it. -/
def extension (path : String) : Option String := do
  let name ← fileName path
  match (Text.fields '.' name.toList).reverse with
  | [] => none
  | [_] => none
  | [_, []] => none
  | last :: _ => some (String.ofList last)

end BlockPainting.CommandLine
