import Worksheet.Keyed
import Worksheet.Text

namespace Worksheet

/-- Why a file cannot be read. -/
inductive FileFault where
  | missing
  | isDirectory
  | notDirectory
  | tooLong
  /-- The path has a null character in it. -/
  | nullCharacter
  | notText
  | other (reason : String)
  deriving DecidableEq, Repr

def FileFault.message : FileFault → String
  | .missing => "No such file or directory (os error 2)"
  | .isDirectory => "Is a directory (os error 21)"
  | .notDirectory => "Not a directory (os error 20)"
  | .tooLong => "File name too long (os error 36)"
  | .nullCharacter => "file name contained an unexpected NUL byte"
  | .notText => "stream did not contain valid UTF-8"
  | .other reason => reason

namespace Path

/-- The names in a path. -/
def names (path : String) : List String :=
  (Text.splitOn '/' path).filter fun name => !name.isEmpty

/-- The last name of a path, if it is the name of an entry. -/
def fileName? (path : String) : Option String :=
  ((names path).filter (· != ".")).getLast?.filter (· != "..")

/-- The path of the directory that holds an entry, empty for a single name. -/
def parent (path : String) : String :=
  let dropSlashes (cs : List Char) : List Char := cs.dropWhile (· == '/')
  String.ofList (dropSlashes ((dropSlashes path.toList.reverse).dropWhile (· != '/'))).reverse

def endsInSlash (path : String) : Bool :=
  path.toList.getLast? == some '/'

/-- Whether a path starts from the root instead of the working directory. -/
def isAbsolute (path : String) : Bool :=
  Text.startsWith path "/"

/-- The path of an entry in a directory. A path from the root stands for itself. -/
def join (directory path : String) : String :=
  if directory.isEmpty || isAbsolute path then path
  else if endsInSlash directory then directory ++ path
  else directory ++ "/" ++ path

/-- The names to follow one after the other. A slash at the end asks for a directory. -/
def steps (path : String) : List String :=
  if endsInSlash path then names path ++ ["."] else names path

/-- The names on the way from the working directory to an entry, if none of the names leads out of
it. -/
def way (path : String) : List String :=
  (names path).foldl (fun way name =>
    if name == "." then way else if name == ".." then way.dropLast else way ++ [name]) []

/-- Greatest number of bytes in a name. -/
def nameLimit : Nat := 255

/-- Greatest number of bytes in a path. -/
def sizeLimit : Nat := 4095

/-- What is wrong with a path by itself. -/
def fault? (path : String) : Option FileFault :=
  if Text.contains path '\x00' then some .nullCharacter
  else if path.isEmpty then some .missing
  else if sizeLimit < Text.size path then some .tooLong
  else none

end Path

/-- What stands at a path. -/
inductive Entry where
  | file
  | directory (entries : List (String × Entry))

namespace Entry

def isFile : Entry → Bool
  | .file => true
  | .directory _ => false

def entries : Entry → List (String × Entry)
  | .file => []
  | .directory entries => entries

/-- Adds a file at the end of a way of names. -/
def add : List String → Entry → Entry
  | [], _ => .file
  | name :: rest, e =>
    let inner := (Keyed.get? name e.entries).getD (.directory [])
    .directory (Keyed.insert name (add rest inner) e.entries)

end Entry

/-- An entry and the directories around it, the nearest one first. No entries stand for a directory
outside the working directory, of which nothing is known. -/
abbrev Trail := List Entry

namespace Trail

def entry (trail : Trail) : Entry :=
  trail.head?.getD (.directory [])

/-- Goes on to a name in a directory. -/
def follow (trail : Trail) (name : String) : Except FileFault Trail :=
  if trail.entry.isFile then .error .notDirectory
  else if name == "." then .ok trail
  else if name == ".." then .ok trail.tail
  else if Path.nameLimit < Text.size name then .error .tooLong
  else
    match Keyed.get? name trail.entry.entries with
    | none => .error .missing
    | some e => .ok (e :: trail)

end Trail

/-- The entry at a path, where the given one is the working directory. -/
def Entry.find (root : Entry) (path : String) : Except FileFault Entry :=
  match Path.fault? path with
  | some fault => .error fault
  | none =>
    ((Path.steps path).foldlM Trail.follow (if Path.isAbsolute path then [] else [root])).map
      Trail.entry

/-- Access to files. -/
structure Files (m : Type → Type) where
  /-- What stands at a path, if anything does. -/
  find : String → m (Option Entry)
  /-- The text of a file. -/
  read : String → m (Except FileFault String)

namespace Files

/-- Files given by their paths and texts. -/
def ofList (files : List (String × String)) : Files Id where
  find path := ((tree files).find path).toOption
  read path :=
    match (tree files).find path with
    | .error e => .error e
    | .ok (.directory _) => .error .isDirectory
    | .ok .file =>
      match files.findRev? fun (other, _) => Path.way other == Path.way path with
      | some (_, text) => .ok text
      | none => .error .missing
where
  tree (files : List (String × String)) : Entry :=
    files.foldl (fun e (path, _) => e.add (Path.way path)) (.directory [])

end Files

end Worksheet
