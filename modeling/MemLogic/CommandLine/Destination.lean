import MemLogic.Error

/-! Where output goes, and why it cannot be written there. -/

namespace MemLogic.CommandLine

/-- Faults that end a run without an exit status. -/
inductive Fault where
  | unreadable (e : Error)
  | isDirectory (path : Text)
  | noDirectory (path : Text)
  | nameTooLong (path : Text)
  | nullCharacter
  | noPath
  deriving DecidableEq, Repr

def Fault.message : Fault → Text
  | unreadable e => e.message
  | isDirectory path => "[Errno 21] Is a directory: ".toList ++ Text.quote path
  | noDirectory path => "[Errno 2] No such file or directory: ".toList ++ Text.quote path
  | nameTooLong path => "[Errno 36] File name too long: ".toList ++ Text.quote path
  | nullCharacter => "embedded null byte".toList
  | noPath => "expected str, bytes or os.PathLike object, not list".toList

namespace Destination

/-- Names along a path; empty ones and single dots lead nowhere. -/
def names (path : Text) : List Text :=
  (path.splitOn '/').filter fun name => name ≠ [] && name ≠ ['.']

/-- The leading slash of an absolute path; exactly two stay two. -/
def root (path : Text) : Text :=
  match path with
  | '/' :: '/' :: '/' :: _ => ['/']
  | '/' :: '/' :: _ => ['/', '/']
  | '/' :: _ => ['/']
  | _ => []

/-- A path in short form; the current directory is a dot. -/
def shorten (path : Text) : Text :=
  match root path ++ List.intercalate ['/'] (names path) with
  | [] => ['.']
  | short => short

/-- Length in bytes of UTF-8, in which the file system counts. -/
def byteLength (t : Text) : Nat :=
  (String.ofList t).utf8ByteSize

def maxNameBytes : Nat := 255

def maxPathBytes : Nat := 4095

/-- Where a path has led so far: to the current directory or one above it, to the root, or to a
directory that every system has below the root. -/
inductive Site where
  | current
  | root
  | standard
  deriving DecidableEq, Repr

def Site.parent : Site → Site
  | current => current
  | root | standard => root

def standardDirectories : List Text :=
  ["dev".toList, "tmp".toList]

/-- Follows names from a site at which nothing but the standard directories is found; the first
name that is too long or not found decides, and only the last may be missing. -/
def follow (path : Text) (site : Site) : List Text → Except Fault Text
  | [] => .error (.isDirectory path)
  | name :: rest =>
    if name = ['.', '.'] then follow path site.parent rest
    else if maxNameBytes < byteLength name then .error (.nameTooLong path)
    else if site = .root ∧ name ∈ standardDirectories then follow path .standard rest
    else if rest = [] then .ok path
    else .error (.noDirectory path)

/-- Where a file with the given path is written when the current directory is empty. -/
def inEmptyDirectory (path : Text) : Except Fault Text :=
  let short := shorten path
  if path.contains '\x00' then .error .nullCharacter
  else if maxPathBytes < byteLength short then .error (.nameTooLong short)
  else follow short (if root path = [] then .current else .root) (names path)

end Destination

end MemLogic.CommandLine
