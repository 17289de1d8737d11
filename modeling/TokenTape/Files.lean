import TokenTape.Bytes.Text
/-!
The files that a program can read. A `FileTree` is a fixed tree of directories and files,
which a path is followed through from the directory that the program was started in.
-/
namespace TokenTape

/-- Why a file could not be read or written. -/
inductive ReadFailure where
  | notFound
  | isDirectory
  | notDirectory
  | nameTooLong
  /-- The bytes are not UTF-8. -/
  | notText
  | other (reason : String)
  deriving DecidableEq, Repr

/-- What is told about a file that could not be read or written. -/
def ReadFailure.message : ReadFailure → String
  | notFound => "No such file or directory (os error 2)"
  | isDirectory => "Is a directory (os error 21)"
  | notDirectory => "Not a directory (os error 20)"
  | nameTooLong => "File name too long (os error 36)"
  | notText => Utf8.complaint
  | other reason => reason

/-- Directories and files, each by the names that lead to it from the root. The directories
on the way to something need not be told. -/
structure FileTree where
  directories : List (List String)
  files : List (List String × List UInt8)

namespace FileTree

/-- The longest name that a file may have, in bytes. -/
def longestName : Nat := 255

/-- The longest path that is followed at all, in bytes. -/
def longestPath : Nat := 4095

/-- The names in a path, without those that lead nowhere. -/
def names (path : String) : List String :=
  (path.splitOn "/").filter fun name => name != "" && name != "."

/-- Whether there is a directory at a path. -/
def isDirectory (tree : FileTree) (path : List String) : Bool :=
  path.isEmpty || tree.directories.any (path.isPrefixOf ·) ||
    tree.files.any fun (file, _) => path.isPrefixOf file && path != file

/-- The bytes of the file at a path. -/
def file? (tree : FileTree) (path : List String) : Option (List UInt8) :=
  tree.files.lookup path

/-- Puts a file at a path, in place of the one that stood there. -/
def put (tree : FileTree) (path : List String) (bytes : List UInt8) : FileTree :=
  { tree with files := (path, bytes) :: tree.files }

/-- Follows names from a place on, which is given with its innermost name first. Every name
is looked up in a directory, also one that leads back out of it, and the root is its own
parent. -/
def follow (tree : FileTree) (within : List String) : List String → Except ReadFailure (List String)
  | [] => .ok within
  | name :: rest =>
    if !tree.isDirectory within.reverse then
      .error (if (tree.file? within.reverse).isSome then .notDirectory else .notFound)
    else if name = ".." then tree.follow within.tail rest
    else if longestName < name.utf8ByteSize then .error .nameTooLong
    else tree.follow (name :: within) rest

/-- The place that a path leads to from a directory, or from the root if the path starts with a
slash. Only the way there has to exist. -/
def locate (tree : FileTree) (start : List String) (path : String) :
    Except ReadFailure (List String) :=
  if longestPath < path.utf8ByteSize then .error .nameTooLong
  else if path = "" then .error .notFound
  else
    (tree.follow (if path.startsWith "/" then [] else start.reverse) (names path)).map List.reverse

/-- Reads the file that a path leads to. A path that ends in a slash asks for a directory. -/
def read (tree : FileTree) (start : List String) (path : String) :
    Except ReadFailure (List UInt8) :=
  match tree.locate start path with
  | .error failure => .error failure
  | .ok place =>
    if tree.isDirectory place then .error .isDirectory
    else
      match tree.file? place with
      | none => .error .notFound
      | some bytes =>
        if path.endsWith "/" || path.endsWith "/." then .error .notDirectory else .ok bytes

/-- Writes a file in a directory, in place of the one of that name. -/
def write (tree : FileTree) (start : List String) (name : String) (bytes : List UInt8) :
    Except ReadFailure FileTree :=
  if tree.isDirectory (start ++ [name]) then .error .isDirectory
  else .ok (tree.put (start ++ [name]) bytes)

/-- The directories at the root of a system. -/
def systemDirectories : List String :=
  ["bin", "boot", "dev", "etc", "home", "lib", "mnt", "opt", "proc", "root", "run", "sbin",
    "srv", "sys", "tmp", "usr", "var"]

/-- The directory of its own that a program is started in. -/
def workplace : List String := ["tmp", "work"]

/-- The directories of the system and the workplace, with the null device and the standard
input of a program. -/
def system (input : List UInt8) : FileTree where
  directories := workplace :: systemDirectories.map ([·])
  files := [(["dev", "null"], []), (["dev", "stdin"], input)]

/-- What a program sees that is started in a directory of its own, after files were written
there one after the other. -/
def ofWorkplace (files : List (String × List UInt8)) (input : List UInt8) : FileTree :=
  files.foldl (fun tree (name, bytes) => tree.put (workplace ++ names name) bytes) (system input)

/-- A file is read back as it was last written, and no other file is touched. -/
theorem file?_put (tree : FileTree) (path other : List String) (bytes : List UInt8) :
    (tree.put path bytes).file? other = if other = path then some bytes else tree.file? other := by
  unfold put file?
  rw [List.lookup_cons]
  split
  · next same => rw [if_pos (eq_of_beq same)]
  · next differ => rw [if_neg (ne_of_beq_false differ)]

end FileTree
end TokenTape
