import WebClient.Failure

/-!
# Files

The files that the client can see, by path. A path is followed part by part, from
the root if it begins with a slash, else from the working directory: `.` stays in
place, `..` goes up, and any other part is a name. Only directories are gone
through. There is a directory wherever a file is in it, and where an entry says so
by ending with a slash; the root, the working directory and the directories above
it are always there.
-/

set_option autoImplicit false

namespace WebClient

abbrev Files := List (Text × Bytes)

inductive Origin
  | root
  /-- The working directory, or the directory so many steps above it. -/
  | above (steps : Nat)
  deriving DecidableEq, Repr

/-- Where a path leads to. -/
structure Place where
  origin : Origin
  names : List Text
  deriving DecidableEq, Repr

namespace Place

def nameLimit : Nat := 255

def isDots (part : Text) : Bool :=
  part == ['.'] || part == ['.', '.']

def parent (place : Place) : Place :=
  match place.origin, place.names with
  | .root, [] => place
  | .above steps, [] => ⟨.above (steps + 1), []⟩
  | origin, names => ⟨origin, names.dropLast⟩

def step (place : Place) (part : Text) : Place :=
  if part == ['.'] then place
  else if part == ['.', '.'] then place.parent
  else ⟨place.origin, place.names ++ [part]⟩

def start (path : Text) : Place :=
  ⟨if path.head? = some '/' then .root else .above 0, []⟩

/-- The parts of a path. It does not matter how many slashes are between them. -/
def parts (path : Text) : List Text :=
  (path.splitOn '/').filter fun part => !part.isEmpty

def ofPath (path : Text) : Place :=
  (parts path).foldl step (start path)

def encloses (place other : Place) : Bool :=
  place.origin == other.origin && place.names.isPrefixOf other.names

end Place

namespace Files

inductive Node
  | file (content : Bytes)
  | directory
  deriving DecidableEq, Repr

def pathLimit : Nat := 4096

def endsWithSlash (path : Text) : Bool :=
  path.getLast? = some '/'

def directoryOf (name : Text) : Place :=
  if endsWithSlash name then Place.ofPath name else (Place.ofPath name).parent

def hasDirectory (files : Files) (place : Place) : Bool :=
  place.names.isEmpty || files.any fun (name, _) => place.encloses (directoryOf name)

def isAt (place : Place) (name : Text) : Bool :=
  !endsWithSlash name && Place.ofPath name == place

def at? (files : Files) (place : Place) : Option Node :=
  if files.hasDirectory place then some .directory
  else (List.find? (fun (name, _) => isAt place name) files).map fun (_, content) => .file content

def go (place : Place) (part : Text) : Except IoFault Place :=
  if Place.nameLimit < part.utf8.length then .error .nameTooLong else .ok (place.step part)

def enter (files : Files) (place : Place) (part : Text) : Except IoFault Place :=
  match go place part with
  | .error fault => .error fault
  | .ok place =>
    match files.at? place with
    | some .directory => .ok place
    | some (.file _) => .error .notDirectory
    | none => .error .notFound

/-- Follows a path through its directories: the last of them, and the part of the
path that is left, which there is not in the path of slashes alone. -/
def approach (files : Files) (path : Text) : Except IoFault (Place × Option Text) :=
  if path.contains '\x00' then .error .nulInName
  else if path.isEmpty then .error .notFound
  else if pathLimit ≤ path.utf8.length then .error .nameTooLong
  else
    ((Place.parts path).dropLast.foldlM files.enter (Place.start path)).map fun place =>
      (place, (Place.parts path).getLast?)

def find (files : Files) (path : Text) : Except IoFault Node :=
  match files.approach path with
  | .error fault => .error fault
  | .ok (directory, part) =>
    match go directory (part.getD ['.']) with
    | .error fault => .error fault
    | .ok place =>
      match files.at? place with
      | none => .error .notFound
      | some .directory => .ok .directory
      | some (.file content) =>
        if endsWithSlash path then .error .notDirectory else .ok (.file content)

def content? (files : Files) (path : Text) : Option Bytes :=
  match files.find path with
  | .ok (.file content) => some content
  | _ => none

def put (files : Files) (place : Place) (path : Text) (content : Bytes) : Files :=
  (files.filter fun (name, _) => !isAt place name) ++ [(path, content)]

def write (files : Files) (path : Text) (content : Bytes) : Except IoFault Files :=
  match files.approach path with
  | .error fault => .error fault
  | .ok (_, none) => .error .isDirectory
  | .ok (directory, some part) =>
    if endsWithSlash path || Place.isDots part then .error .isDirectory
    else
      match go directory part with
      | .error fault => .error fault
      | .ok place =>
        if files.hasDirectory place then .error .isDirectory
        else .ok (files.put place path content)

end Files

end WebClient
