import Casework.Error

/-!
# Files

The part of a file system that definitions, journals and settings are read from.

* `FileNode`, `Folder` : files and directories;
* `Folder.readText`, `Folder.appendText` : one file of a directory;
* `FileTree` : a tree with a working directory;
* `FileTree.resolve`, `FileTree.graft` : look-up along a path, and putting something there;
* `FileTree.openFolder` : a directory, which is made if it is not there.
-/

namespace Casework

inductive FileContent where
  | text (s : String)
  /-- Bytes that are no text. -/
  | undecodable
deriving DecidableEq, Repr

inductive FileNode where
  | file (content : FileContent)
  | directory (entries : List (String × FileNode))
deriving Repr

abbrev Folder := List (String × FileNode)

/-- Why a name cannot belong to a file, if it cannot: names have at most 255 bytes. -/
def nameFault? (name : String) : Option IoCause :=
  if name.toList.contains '\x00' then some .badName
  else if 255 < name.utf8ByteSize then some .nameTooLong
  else none

namespace Folder

def get? (f : Folder) (name : String) : Option FileNode :=
  (f.find? fun e => e.1 == name).map (·.2)

def put : Folder → String → FileNode → Folder
  | [], name, node => [(name, node)]
  | (n, old) :: rest, name, node =>
      if n = name then (name, node) :: rest else (n, old) :: put rest name node

def lookup (f : Folder) (name : String) : Except IoCause FileNode :=
  match nameFault? name, f.get? name with
  | some cause, _ => .error cause
  | none, none => .error .notFound
  | none, some node => .ok node

def readText (f : Folder) (name : String) : Except IoCause String :=
  match f.lookup name with
  | .error cause => .error cause
  | .ok (.directory _) => .error .isDirectory
  | .ok (.file .undecodable) => .error .notText
  | .ok (.file (.text s)) => .ok s

/-- Adds text at the end of a file, creating it if it is not there. -/
def appendText (f : Folder) (name text : String) : Except IoCause Folder :=
  match f.lookup name with
  | .error .notFound => .ok (f.put name (.file (.text text)))
  | .error cause => .error cause
  | .ok (.directory _) => .error .isDirectory
  -- Bytes that are no text stay so whatever is added.
  | .ok (.file .undecodable) => .ok f
  | .ok (.file (.text s)) => .ok (f.put name (.file (.text (s ++ text))))

/-- Puts a file or directory at a path of names, creating the directories on the way. -/
def putAt : List String → FileNode → Folder → Folder
  | [], _, f => f
  | [name], node, f => f.put name node
  | name :: rest, node, f =>
      match f.get? name with
      | some (.directory inner) => f.put name (.directory (putAt rest node inner))
      | _ => f.put name (.directory (putAt rest node []))

def nodeAt? : List String → Folder → Option FileNode
  | [], f => some (.directory f)
  | [name], f => f.get? name
  | name :: rest, f =>
      match f.get? name with
      | some (.directory inner) => nodeAt? rest inner
      | _ => none

end Folder

/-- A tree of files with a working directory. -/
structure FileTree where
  root : Folder := []
  /-- Names on the way from the root to the working directory. -/
  workingDirectory : List String := []

namespace FileTree

def pathParts (path : String) : List String :=
  path.splitOn "/"

/-- Follows the parts of a path.  `above` holds the directories on the way, nearest first; an empty
part and `.` stay where they are, `..` goes up, and all three need a directory. -/
def walk (above : List Folder) (here : FileNode) : List String → Except IoCause FileNode
  | [] => .ok here
  | part :: rest =>
      match here with
      | .file _ => .error .notDirectory
      | .directory entries =>
          if part = "" ∨ part = "." then walk above here rest
          else if part = ".." then
            match above with
            | [] => walk [] here rest
            | parent :: above => walk above (.directory parent) rest
          else
            match Folder.lookup entries part with
            | .error cause => .error cause
            | .ok node => walk (entries :: above) node rest

/-- Puts a file or directory at the names from the root on, followed by the parts of a path.  Every
directory on the way is created. -/
def graftAt (above : List String) (node : FileNode) : List String → Folder → Folder
  | [], root => Folder.putAt above.reverse node root
  | part :: rest, root =>
      if part = "" ∨ part = "." then graftAt above node rest root
      else if part = ".." then graftAt (above.drop 1) node rest root
      else
        let names := part :: above
        let root :=
          if rest.isEmpty || (Folder.nodeAt? names.reverse root).isSome then root
          else Folder.putAt names.reverse (.directory []) root
        graftAt names node rest root

def graft (t : FileTree) (path : String) (node : FileNode) : FileTree :=
  let start := if path.startsWith "/" then [] else t.workingDirectory.reverse
  { t with root := graftAt start node (pathParts path) t.root }

/-- Why a text cannot lead anywhere, if it cannot: a path has one byte at least and fewer than
4096. -/
def pathFault? (path : String) : Option IoCause :=
  if path.isEmpty then some .notFound
  else if path.toList.contains '\x00' then some .badName
  else if 4096 ≤ path.utf8ByteSize then some .nameTooLong
  else none

def resolve (t : FileTree) (path : String) : Except IoCause FileNode :=
  let start := if path.startsWith "/" then [] else t.workingDirectory
  match pathFault? path with
  | some cause => .error cause
  | none => walk [] (.directory t.root) (start ++ pathParts path)

def readText (t : FileTree) (path : String) : Except IoCause String :=
  match t.resolve path with
  | .error cause => .error cause
  | .ok (.directory _) => .error .isDirectory
  | .ok (.file .undecodable) => .error .notText
  | .ok (.file (.text s)) => .ok s

def pathExists (t : FileTree) (path : String) : Bool :=
  match t.resolve path with
  | .ok _ => true
  | .error _ => false

/-- Makes the directories that the parts of a path lead to and that are not there.  `above` holds the
names from the root on, the nearest first. -/
def makeFolders (above : List String) : List String → Folder → Except IoCause (Folder × Folder)
  | [], root =>
      match root.nodeAt? above.reverse with
      | some (.directory entries) => .ok (root, entries)
      | _ => .error .notDirectory
  | part :: rest, root =>
      if part = "" ∨ part = "." then makeFolders above rest root
      else if part = ".." then makeFolders (above.drop 1) rest root
      else
        let names := part :: above
        match nameFault? part, root.nodeAt? names.reverse with
        | some cause, _ => .error cause
        | none, some (.file _) => .error .alreadyExists
        | none, some (.directory _) => makeFolders names rest root
        | none, none => makeFolders names rest (root.putAt names.reverse (.directory []))

/-- The directory at a path, and the tree with it.  It is made if it is not there, and so is every
directory on the way. -/
def openFolder (t : FileTree) (path : String) : Except IoCause (FileTree × Folder) :=
  let path := if path.isEmpty then "." else path
  let start := if path.startsWith "/" then [] else t.workingDirectory.reverse
  match pathFault? path with
  | some cause => .error cause
  | none =>
      match makeFolders start (pathParts path) t.root with
      | .ok (root, entries) => .ok ({ t with root := root }, entries)
      | .error cause => .error cause

/-- A path below another one; an absolute path stands for itself. -/
def join (base path : String) : String :=
  if path.startsWith "/" ∨ base.isEmpty then path
  else if base.endsWith "/" then base ++ path
  else base ++ "/" ++ path

end FileTree
end Casework
