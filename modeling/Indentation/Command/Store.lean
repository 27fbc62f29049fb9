import Indentation.Text.Quoted
import Indentation.Text.Utf8

/-! Files and directories below a working directory. Paths are looked up one part after another,
and each part but the last must be a directory. -/
namespace Indentation.Command

/-- The parts of a place below the working directory. Places outside begin with `..` or `/`. -/
abbrev Place := List Text

structure Store where
  files : List (Place × ByteArray)
  directories : List Place

inductive FileError where
  | missing | notDirectory | isDirectory | nameTooLong | nullByte
  deriving DecidableEq, Repr

def FileError.message (e : FileError) (path : Text) : Text :=
  match e with
  | missing => "[Errno 2] No such file or directory: ".toList ++ path.quote
  | notDirectory => "[Errno 20] Not a directory: ".toList ++ path.quote
  | isDirectory => "[Errno 21] Is a directory: ".toList ++ path.quote
  | nameTooLong => "[Errno 36] File name too long: ".toList ++ path.quote
  | nullByte => "embedded null byte".toList

inductive Node where
  | directory
  | file (place : Place) (bytes : ByteArray)
  | free (place : Place)

namespace Store

def here : Text := ['.']
def up : Text := ['.', '.']
def root : Place := [['/']]

def isDirectory (s : Store) (p : Place) : Bool :=
  p.all (· == up) || p == root || s.directories.contains p

def file? (s : Store) (p : Place) : Option ByteArray :=
  (s.files.find? fun entry => entry.1 == p).map Prod.snd

def above (p : Place) : Place :=
  if p == root then root else if p.all (· == up) then p ++ [up] else p.dropLast

def enter (s : Store) (p : Place) (part : Text) : Except FileError (Place × Node) :=
  if part = here then .ok (p, .directory)
  else if part = up then .ok (above p, .directory)
  else
    let q := p ++ [part]
    if s.isDirectory q then .ok (q, .directory)
    else match s.file? q with
      | some bytes => .ok (q, .file q bytes)
      | none => if (Text.encode part).size ≤ 255 then .ok (q, .free q) else .error .nameTooLong

def walk (s : Store) (p : Place) : List Text → Except FileError Node
  | [] => .ok .directory
  | part :: parts => do
    let (q, node) ← s.enter p part
    if parts.isEmpty then .ok node
    else match node with
      | .directory => walk s q parts
      | .file _ _ => .error .notDirectory
      | .free _ => .error .missing

def parts (path : Text) : List Text := (path.splitOn '/').filter fun p => !p.isEmpty

def find (s : Store) (path : Text) : Except FileError Node :=
  if path.contains (Char.ofNat 0) then .error .nullByte
  else if path.isEmpty then .error .missing
  else if 4095 < (Text.encode path).size then .error .nameTooLong
  else s.walk (if path.head? = some '/' then root else []) (parts path)

def wantsDirectory (path : Text) : Bool := path.getLast? == some '/'

def pathExists (s : Store) (path : Text) : Bool :=
  match s.find path with
  | .ok .directory => true
  | .ok (.file _ _) => !wantsDirectory path
  | _ => false

def read (s : Store) (path : Text) : Except FileError ByteArray :=
  match s.find path with
  | .error e => .error e
  | .ok .directory => .error .isDirectory
  | .ok (.file _ bytes) => if wantsDirectory path then .error .notDirectory else .ok bytes
  | .ok (.free _) => .error .missing

def put (s : Store) (p : Place) (bytes : ByteArray) : Store :=
  if s.files.any fun entry => entry.1 == p then
    { s with files := s.files.map fun entry => if entry.1 == p then (p, bytes) else entry }
  else { s with files := s.files ++ [(p, bytes)] }

def write (s : Store) (path : Text) (bytes : ByteArray) : Except FileError Store :=
  match s.find path with
  | .error e => .error e
  | .ok .directory => .error .isDirectory
  | .ok (.file p _) => if wantsDirectory path then .error .isDirectory else .ok (s.put p bytes)
  | .ok (.free p) => if wantsDirectory path then .error .isDirectory else .ok (s.put p bytes)

def pathOf (p : Place) : Text :=
  match p with
  | ['/'] :: rest => '/' :: List.intercalate ['/'] rest
  | p => List.intercalate ['/'] p

def placeOf (path : Text) : Place :=
  (parts path).foldl (fun p part =>
    if part = here then p else if part = up then above p else p ++ [part])
    (if path.head? = some '/' then root else [])

def ancestors (p : Place) : List Place := (List.range' 1 p.length).map fun n => p.take n

def ofEntries (files : List (Text × ByteArray)) (directories : List Text) : Store where
  files := files.map fun entry => (placeOf entry.1, entry.2)
  directories := files.flatMap (fun entry => ancestors (placeOf entry.1).dropLast) ++
    directories.flatMap fun d => ancestors (placeOf d)

end Store
end Indentation.Command
