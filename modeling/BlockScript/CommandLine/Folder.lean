import BlockScript.Text.Lines
import BlockScript.Text.Quoted
import BlockScript.Text.Search

/-!
# Folders

What a path names, seen from the folder in which the command line is run, and
the text that is read there. A path is followed part by part from left to right,
and the first part that cannot be followed decides what is wrong with it.
-/

namespace BlockScript.CommandLine

open BlockScript.Text

/-! ## Files that cannot be read -/

/-- Why a file cannot be read. -/
inductive FileError where
  | missing
  | notADirectory
  | directory
  | nameTooLong
  | containsNul
  deriving DecidableEq, Repr

/-- The message for a file that cannot be read. -/
def FileError.message (file : String) : FileError → String
  | .missing => "[Errno 2] No such file or directory: " ++ shown file
  | .notADirectory => "[Errno 20] Not a directory: " ++ shown file
  | .directory => "[Errno 21] Is a directory: " ++ shown file
  | .nameTooLong => "[Errno 36] File name too long: " ++ shown file
  | .containsNul => "embedded null byte"

/-! ## Text files -/

/-- The characters of a text file, with one line feed at the end of every line,
    however the file ends its lines. -/
def plainNewlines : List Char → List Char
  | [] => []
  | '\r' :: '\n' :: rest => '\n' :: plainNewlines rest
  | '\r' :: rest => '\n' :: plainNewlines rest
  | c :: rest => c :: plainNewlines rest

/-- The text of a text file. -/
def fileText (content : String) : String :=
  String.ofList (plainNewlines content.toList)

/-! ## Paths -/

/-- The most bytes that a part of a path may have. -/
def maxPartBytes : Nat := 255

/-- The most bytes that a whole path may have. -/
def maxPathBytes : Nat := 4095

/-- A folder with text files, each a name and its content, and without further
    folders. -/
abbrev Folder :=
  List (String × String)

/-- What the start of a path leads to: the folder at hand, a folder around it,
    or a file. -/
inductive Place where
  | here
  | around
  | file (content : String)

/-- Follows one part of a path. Of the folders around, no files are known. -/
def Folder.follow (folder : Folder) (place : Place) (part : String) : Except FileError Place :=
  match place with
  | .file _ => .error .notADirectory
  | .here =>
    if part = "" || part = "." then .ok .here
    else if part = ".." then .ok .around
    else if maxPartBytes < part.utf8ByteSize then .error .nameTooLong
    else
      match folder.lookup part with
      | some content => .ok (.file content)
      | none => .error .missing
  | .around =>
    if part = "" || part = "." || part = ".." then .ok .around
    else if maxPartBytes < part.utf8ByteSize then .error .nameTooLong
    else .error .missing

/-- The parts of a path. A slash at its end is followed by an empty part, which
    only a folder has. -/
def pathParts (path : String) : List String :=
  path.splitOn "/"

/-- The text of the file that a path names. -/
def Folder.read (folder : Folder) (path : String) : Except FileError String :=
  if path = "" then .error .missing
  else if path.toList.contains '\x00' then .error .containsNul
  else if maxPathBytes < path.utf8ByteSize then .error .nameTooLong
  else
    let start := if startsWith "/" path then Place.around else .here
    match (pathParts path).foldlM folder.follow start with
    | .error error => .error error
    | .ok (.file content) => .ok (fileText content)
    | .ok .here => .error .directory
    | .ok .around => .error .directory

end BlockScript.CommandLine
