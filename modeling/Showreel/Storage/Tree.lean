import Showreel.Storage.Bytes
import Showreel.Storage.Path

/-!
Contract: access to files, and a tree of files in memory.

Owns:
- the access that a program is given;
- a tree with its files and folders, the walk along a path in it, and access to it.

Does not own: files on a disk. A tree has no links, and whoever asks may do everything.
-/

namespace Showreel.Storage

/-- Access to files and to what goes with them: the text of a file, a new text for one, a
text written over another from a place on, and a text added to a file, which makes the
folders on its way. -/
structure Access (m : Type → Type) where
  read : Path → m (Except Obstacle String)
  write : Path → String → m (Except Obstacle Unit)
  overwrite : Path → Nat → String → m (Except Obstacle Unit)
  append : Path → String → m (Except Obstacle Unit)
  /-- The home of an account; the account without a name is the user's own. -/
  home : String → m (Option Path)
  /-- The time, as a log writes it. -/
  time : m String
  /-- Show a line apart from the output. -/
  tell : String → m Unit

/-- Where a file is: the names of the folders on the way to it, and its own. -/
abbrev Place := List String

/-- Files and folders by their places. -/
structure Tree where
  files : List (Place × ByteArray)
  folders : List Place
  /-- Files that read as empty and lose what is written to them. -/
  sinks : List Place
  homes : List (String × Path)
  /-- The folder in which paths without a root begin. -/
  here : Place
deriving DecidableEq

namespace Tree

/-- The folders that every system has, and the one in which a program is run. -/
def standardFolders : List Place :=
  (["bin", "boot", "dev", "etc", "home", "lib", "media", "mnt", "opt", "proc", "root", "run",
    "sbin", "srv", "sys", "tmp", "usr", "var"].map fun name => [name])
    ++ [["tmp", "run"], ["usr", "bin"], ["usr", "lib"], ["usr", "local"], ["usr", "sbin"],
      ["usr", "share"], ["var", "log"], ["var", "tmp"]]

/-- The accounts that every system has. -/
def standardHomes : List (String × Path) :=
  [("", ⟨"/", ["root"]⟩), ("root", ⟨"/", ["root"]⟩), ("daemon", ⟨"/", ["usr", "sbin"]⟩),
    ("bin", ⟨"/", ["bin"]⟩), ("sys", ⟨"/", ["dev"]⟩), ("nobody", ⟨"/", ["nonexistent"]⟩)]

/-- The tree with some named files in the folder where a program is run. -/
def ofFiles (files : List (String × String)) : Tree :=
  let here := ["tmp", "run"]
  let placed := files.map fun (name, text) => (here ++ (Path.ofText name).parts, text.toUTF8)
  let folders := placed.flatMap fun (place, _) => (List.range place.length).map place.take
  ⟨placed, standardFolders ++ folders, [["dev", "null"]], standardHomes, here⟩

def hasFolder (tree : Tree) (place : Place) : Bool :=
  place.isEmpty || tree.folders.contains place

/-- Whether something that is no folder is at a place. -/
def hasFile (tree : Tree) (place : Place) : Bool :=
  (tree.files.lookup place).isSome || tree.sinks.contains place

/-- The place that names lead to from a place on, the last of them apart all folders. The
root lies in itself. -/
def follow (tree : Tree) (place : Place) : List String → Except Obstacle Place
  | [] => .ok place
  | name :: rest =>
      if name = ".." then follow tree place.dropLast rest
      else if Path.partLimit < name.utf8ByteSize then .error .nameTooLong
      else
        let next := place ++ [name]
        if rest.isEmpty then .ok next
        else if tree.hasFolder next then follow tree next rest
        else if tree.hasFile next then .error .throughFile
        else .error .missing

/-- The place in which a path begins. -/
def origin (tree : Tree) (path : Path) : Place :=
  if path.root.isEmpty then tree.here else []

/-- The place of a path. -/
def locate (tree : Tree) (path : Path) : Except Obstacle Place :=
  match path.defect? with
  | some obstacle => .error obstacle
  | none => tree.follow (tree.origin path) path.parts

/-- The text of a file. -/
def read (tree : Tree) (path : Path) : Except Obstacle String := do
  let place ← tree.locate path
  if tree.hasFolder place then throw .isFolder
  if tree.sinks.contains place then return ""
  match tree.files.lookup place with
  | none => throw .missing
  | some bytes =>
      match String.fromUTF8? bytes with
      | some text => return text
      | none => throw .notText

/-- The text of a file, if there is one. -/
def read? (tree : Tree) (path : Path) : Except Obstacle (Option String) :=
  match tree.read path with
  | .error .missing => .ok none
  | result => result.map some

/-- The tree with the bytes of a file changed; a new file starts empty. -/
def change (tree : Tree) (path : Path) (edit : ByteArray → ByteArray) : Except Obstacle Tree := do
  let place ← tree.locate path
  if tree.hasFolder place then throw .isFolder
  if tree.sinks.contains place then return tree
  let bytes := edit ((tree.files.lookup place).getD ByteArray.empty)
  return { tree with
    files := (place, bytes) :: tree.files.filter fun file => file.1 != place }

/-- The tree with the folders made that names lead through from a place on, as far as
nothing is in the way, and what is. -/
def makeFolders (tree : Tree) (place : Place) : List String → Tree × Option Obstacle
  | [] => (tree, none)
  | name :: rest =>
      if name = ".." then makeFolders tree place.dropLast rest
      else if Path.partLimit < name.utf8ByteSize then (tree, some .nameTooLong)
      else
        let next := place ++ [name]
        if tree.hasFolder next then makeFolders tree next rest
        else if tree.hasFile next then (tree, some .throughFile)
        else makeFolders { tree with folders := next :: tree.folders } next rest

/-- A change of the tree, which stays as it is where there is an obstacle. -/
def attempt (edit : Tree → Except Obstacle Tree) : StateM Tree (Except Obstacle Unit) := do
  match edit (← get) with
  | .ok changed =>
      set changed
      return .ok ()
  | .error obstacle => return .error obstacle

/-- Make the folder of a path and all folders on its way. -/
def prepare (path : Path) : StateM Tree (Option Obstacle) := do
  match path.defect? with
  | some obstacle => return some obstacle
  | none =>
      let tree ← get
      let (made, obstacle) := tree.makeFolders (tree.origin path) path.parts
      set made
      return obstacle

/-- The time of every entry of a log in memory. -/
def standingTime : String := "2000-01-01 00:00:00,000"

/-- Access to a tree in memory. -/
def access : Access (StateM Tree) where
  read path := do return (← get).read path
  write path text := attempt fun tree => tree.change path fun _ => text.toUTF8
  overwrite path place text := attempt fun tree =>
    tree.change path fun bytes => Storage.overwrite bytes place text.toUTF8
  append path text := do
    match ← prepare path.folder with
    | some obstacle => return .error obstacle
    | none => attempt fun tree => tree.change path (· ++ text.toUTF8)
  home name := do return (← get).homes.lookup name
  time := return standingTime
  tell _ := return ()

end Tree

end Showreel.Storage
