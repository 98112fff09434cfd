import Mender.Tree.Path
import Mender.Text.Encoding
import Mender.Text.Quoted

/-! File trees: which files stand where, and what reading and writing them does. Only a write that
succeeds changes a tree, and it changes the one file it names. A write that breaks off midway, as on a
disk that is full once the file was cut short, is not modelled. -/

namespace Mender

open Mender.Text

structure File where
  bytes : List UInt8
  readable : Bool
  writable : Bool
  deriving DecidableEq

inductive Node where
  | file (f : File)
  | directory
  deriving DecidableEq

inductive FileFault where
  | readsDirectory
  | opensDirectory
  | missing
  | underFile
  | denied
  | nameTooLong
  /-- A name with a null character in it is none. -/
  | unnameable
  deriving DecidableEq

namespace FileFault

def message (path : String) : FileFault → String
  | .readsDirectory => "EISDIR: illegal operation on a directory, read"
  | .opensDirectory => "EISDIR: illegal operation on a directory, open '" ++ path ++ "'"
  | .missing => "ENOENT: no such file or directory, open '" ++ path ++ "'"
  | .underFile => "ENOTDIR: not a directory, open '" ++ path ++ "'"
  | .denied => "EACCES: permission denied, open '" ++ path ++ "'"
  | .nameTooLong => "ENAMETOOLONG: name too long, open '" ++ path ++ "'"
  | .unnameable =>
    "The argument 'path' must be a string, Uint8Array, or URL without null bytes. Received " ++
      String.ofList (abbreviated (quoted path.toList))

end FileFault

/-- What stands in a tree, by place. Directories on the way to a place need no entry. -/
structure Tree where
  entries : List (Path × Node)
  deriving DecidableEq

namespace Tree

def empty : Tree := ⟨[]⟩

/-- The entries with `node` set at `p`, in its place if there is one. -/
def setIn (p : Path) (node : Node) : List (Path × Node) → List (Path × Node)
  | [] => [(p, node)]
  | e :: es => if e.1 = p then (p, node) :: es else e :: setIn p node es

def set (t : Tree) (p : Path) (node : Node) : Tree := ⟨setIn p node t.entries⟩

/-- What stands at a place. The root, and what has something below it, are directories. -/
def node? (t : Tree) (p : Path) : Option Node :=
  match t.entries.lookup p with
  | some node => some node
  | none =>
    if p = [] || t.entries.any (fun e => p.isPrefixOf e.1) then some .directory else none

def exists? (t : Tree) (p : Path) : Bool := (t.node? p).isSome

def isDirectory (t : Tree) (p : Path) : Bool := t.node? p == some .directory

def isFile (t : Tree) (p : Path) : Bool :=
  match t.node? p with
  | some (.file _) => true
  | _ => false

def read (t : Tree) (p : Path) : Except FileFault (List UInt8) :=
  match t.node? p with
  | some (.file f) => if f.readable then .ok f.bytes else .error .denied
  | some .directory => .error .readsDirectory
  | none => .error .missing

def readText (t : Tree) (p : Path) : Except FileFault (List Char) := (t.read p).map decode

/-- How many names of a path, from the first one on, lead to something. -/
def known (t : Tree) (p : Path) : Nat :=
  ((List.range p.length).takeWhile fun n => t.exists? (p.take (n + 1))).length

/-- A name takes at most 255 bytes, and a path with its slashes fewer than 4096. -/
def isTooLong (name : Name) : Bool := 255 < (encode name).length

def isPathTooLong (p : Path) : Bool := 4096 ≤ (encode p.chars).length

/-- Why nothing new can be put at a place where nothing is. -/
def obstruction? (t : Tree) (p : Path) : Option FileFault :=
  let n := t.known p
  if p.any (·.contains '\x00') then some .unnameable
  else if isPathTooLong p then some .nameTooLong
  else if t.isFile (p.take n) then some .underFile
  else if (p[n]?.map isTooLong).getD false then some .nameTooLong
  else if n + 1 < p.length then some .missing
  else none

/-- The tree with these bytes in a file. A new file needs a directory to stand in. -/
def write (t : Tree) (p : Path) (bytes : List UInt8) : Except FileFault Tree :=
  match t.node? p with
  | some (.file f) => if f.writable then .ok (t.set p (.file { f with bytes })) else .error .denied
  | some .directory => .error .opensDirectory
  | none =>
    match t.obstruction? p with
    | some fault => .error fault
    | none => .ok (t.set p (.file ⟨bytes, true, true⟩))

def writeText (t : Tree) (p : Path) (s : List Char) : Except FileFault Tree := t.write p (encode s)

/-- Where a text leads, as seen from the directory `base`, if something is there. The empty text leads
nowhere, nor does a null character, and behind a slash there is nothing but a directory. -/
def locate (t : Tree) (base : Path) (text : List Char) : Option Path :=
  let p := Path.resolve base text
  let named := text != [] && !text.contains '\x00'
  let found := if text.getLast? = some '/' then t.isDirectory p else t.exists? p
  if named && found then some p else none

def files (t : Tree) : List (Path × File) :=
  t.entries.filterMap fun (p, node) =>
    match node with
    | .file f => some (p, f)
    | .directory => none

end Tree
end Mender
