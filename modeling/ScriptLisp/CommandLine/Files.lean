/-!
Where program text comes from: files and the paths that lead to them. A path is walked name by name
from the current directory, or from outside if it starts with a slash: an empty name and `.` stay in
a directory, `..` goes to the directory around it, and any other name is looked up. Only a directory
can be left by a further name, so a path that goes on after a file leads nowhere, even if only a
slash follows. Of the directories around the current one nothing is known but that they exist.
-/

namespace ScriptLisp

/-- A place that program text comes from. -/
inductive Origin where
  | synthetic
  | buffer (name : String)
  | file (path : String)
deriving DecidableEq, Repr

def Origin.display : Origin → String
  | .synthetic => "<synthetic>"
  | .buffer name => "<buffer " ++ name ++ ">"
  | .file path => path

namespace CommandLine

inductive FileFault where
  | notFound
  | notDirectory
  | isDirectory
  | nameTooLong
  | zeroInPath
  | notText
deriving DecidableEq, Repr

/-- The message of the operating system for a file that cannot be read. -/
def FileFault.message : FileFault → String
  | notFound => "No such file or directory (os error 2)"
  | notDirectory => "Not a directory (os error 20)"
  | isDirectory => "Is a directory (os error 21)"
  | nameTooLong => "File name too long (os error 36)"
  | zeroInPath => "file name contained an unexpected NUL byte"
  | notText => "stream did not contain valid UTF-8"

/-- The text of a file, given its bytes. -/
def decode (bytes : ByteArray) : Except FileFault String :=
  match String.fromUTF8? bytes with
  | some text => .ok text
  | none => .error .notText

/-! ### Paths -/

/-- The most bytes of a path. -/
def longestPath : Nat := 4095

/-- The most bytes of one name in a path. -/
def longestName : Nat := 255

/-- Refuses a path that no file can have. -/
def checkPath (path : String) : Except FileFault Unit :=
  if path.toList.contains (Char.ofNat 0) then .error .zeroInPath
  else if path.isEmpty then .error .notFound
  else if longestPath < path.utf8ByteSize then .error .nameTooLong
  else .ok ()

/-- The files below the current directory, each with the names that lead to it. -/
structure Files where
  entries : List (List String × ByteArray)

/-- The names that lead to a place below the current directory, once `.` and `..` are followed. -/
def names (path : String) : List String :=
  (path.splitOn "/").foldl (fun (outer : List String) name =>
    if name = "" ∨ name = "." then outer
    else if name = ".." then outer.dropLast
    else outer ++ [name]) []

/-- The files at some paths; of two at one place the later one stays. -/
def Files.ofList (files : List (String × ByteArray)) : Files :=
  ⟨files.reverse.map fun (path, bytes) => (names path, bytes)⟩

/-! ### Walking -/

/-- Where the walk along a path has come to. -/
inductive Place where
  /-- A directory outside the current one. -/
  | outside
  /-- A directory, by the names that lead to it from the current one. -/
  | directory (names : List String)
  /-- A file and its bytes. -/
  | file (bytes : ByteArray)

def Files.enter (files : Files) (directory : List String) (name : String) :
    Except FileFault Place :=
  let place := directory ++ [name]
  match files.entries.lookup place with
  | some bytes => .ok (.file bytes)
  | none =>
    if files.entries.any fun (file, _) => place.isPrefixOf file then .ok (.directory place)
    else .error .notFound

/-- The directory around another. -/
def around : List String → Place
  | [] => .outside
  | name :: names => .directory (name :: names).dropLast

/-- Goes on from a place by one name. -/
def Files.step (files : Files) (place : Place) (name : String) : Except FileFault Place :=
  match place with
  | .file _ => .error .notDirectory
  | .outside =>
    if name = "" ∨ name = "." ∨ name = ".." then .ok .outside
    else if longestName < name.utf8ByteSize then .error .nameTooLong
    else .error .notFound
  | .directory names =>
    if name = "" ∨ name = "." then .ok (.directory names)
    else if name = ".." then .ok (around names)
    else if longestName < name.utf8ByteSize then .error .nameTooLong
    else files.enter names name

def start (path : String) : Place :=
  if path.toList.head? = some '/' then .outside else .directory []

/-- Reads the file at a path. -/
def Files.read (files : Files) (path : String) : Except FileFault String := do
  checkPath path
  match ← (path.splitOn "/").foldlM files.step (start path) with
  | .file bytes => decode bytes
  | .directory _ | .outside => .error .isDirectory

end CommandLine

end ScriptLisp
