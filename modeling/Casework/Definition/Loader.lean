import Casework.Definition.Basic
import Casework.Files.Tree
import Casework.Yaml.Document

/-!
# Where definitions come from

* `Loader` : definitions kept in memory, or a directory of files;
* `Loader.load` : the definition under a name and version.

In a directory the file of a definition is named for both, with every point turned into an
underscore: `expense_approval_v1_0_0.yml`, or `.yaml` if there is no such file.
-/

namespace Casework

inductive Loader where
  | memory (definitions : List Definition)
  /-- A directory, by its path in a tree of files. -/
  | directory (tree : FileTree) (path : String)

namespace Loader

/-- The name of the file of a definition, its extension left out. -/
def fileStem (name version : String) : String :=
  String.ofList ((name ++ "_v" ++ version).toList.map fun c => if c = '.' then '_' else c)

/-- The names of the files that a definition is looked for in, in order. -/
def candidates (name version : String) : List String :=
  [fileStem name version ++ ".yml", fileStem name version ++ ".yaml"]

/-- Puts a definition in place of the one with its name and version, if there is one. -/
def replace (d : Definition) : List Definition → List Definition
  | [] => [d]
  | e :: rest =>
      if e.name = d.name ∧ e.version = d.version then d :: rest else e :: replace d rest

/-- The definitions of a list, a later one in place of an earlier one of its name and version. -/
def ofDefinitions (ds : List Definition) : Loader :=
  .memory (ds.foldl (fun acc d => replace d acc) [])

def insert : Loader → Definition → Loader
  | .memory ds, d => .memory (replace d ds)
  | .directory tree path, _ => .directory tree path

def find? (ds : List Definition) (name version : String) : Option Definition :=
  ds.find? fun d => d.name == name && d.version == version

def loadFirst (tree : FileTree) (path name version : String) :
    List String → Except Error Definition
  | [] => .error (.definitionNotFound name version)
  | file :: rest =>
      let source := FileTree.join path file
      match tree.readText source with
      | .error .notFound => loadFirst tree path name version rest
      | .error _ => .error (.definitionLoad source)
      | .ok text =>
          match Yaml.decode? Definition.decoder text with
          | some d => .ok d
          | none => .error (.definitionLoad source)

def load (l : Loader) (name version : String) : Except Error Definition :=
  match l with
  | .memory ds =>
      match find? ds name version with
      | some d => .ok d
      | none => .error (.definitionNotFound name version)
  | .directory tree path => loadFirst tree path name version (candidates name version)

def isDirectory : Loader → Bool
  | .memory _ => false
  | .directory _ _ => true

end Loader
end Casework
