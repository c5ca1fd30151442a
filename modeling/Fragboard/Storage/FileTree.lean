import Fragboard.Storage.Layout
import Fragboard.Storage.FilePath

/-!
# File trees

A `FileTree` holds the files and directories that paths lead to from a working
directory, and the trouble that the system is going to have with changing them.
Each operation reports the fault that a file system would report, and a failing
operation leaves the tree as far changed as its finished steps have changed it.
-/

namespace Fragboard.Storage

inductive Fault where
  | noEntry
  | notDirectory
  | isDirectory
  | alreadyExists
  | nameTooLong
  /-- The path names a directory by its place and not by its name. -/
  | busy
  /-- The path holds a NUL character. -/
  | badName
  /-- Trouble of the system, in its own words. -/
  | other (description : String)
deriving DecidableEq

namespace Fault

def message : Fault → String
  | noEntry => "No such file or directory (os error 2)"
  | notDirectory => "Not a directory (os error 20)"
  | isDirectory => "Is a directory (os error 21)"
  | alreadyExists => "File exists (os error 17)"
  | nameTooLong => "File name too long (os error 36)"
  | busy => "Device or resource busy (os error 16)"
  | badName => "file name contained an unexpected NUL byte"
  | other description => description

end Fault

inductive Node where
  | file (content : Bytes)
  | directory
deriving DecidableEq

/-- A place, by the shortest way to it from the working directory. -/
abbrev Location := List Component

/-- What keeps the system from doing what it is asked to, such as a full disk. -/
structure Trouble where
  description : String
  /-- How many bytes of a file get through all the same. -/
  through : Nat
deriving DecidableEq

/-- Files and directories by location.  The working directory and those above it
are not listed and always exist. -/
structure FileTree where
  nodes : List (Location × Node)
  /-- The trouble, if any, that each coming change meets, in order.  The changes
  behind the end of the list meet none. -/
  outlook : List (Option Trouble) := []

/-- The location of the working directory or of one above it. -/
def Location.isAmbient (location : Location) : Bool :=
  location.all fun component => component == .up || component == .root

/-- The path of a location below the working directory. -/
def Location.inside? (location : Location) : Option String :=
  ("/".intercalate ·) <$> location.mapM Component.name?

namespace FileTree

def empty : FileTree :=
  { nodes := [] }

def node? (tree : FileTree) (location : Location) : Option Node :=
  if location.isAmbient then some .directory else tree.nodes.lookup location

def isDirectory (tree : FileTree) (location : Location) : Bool :=
  tree.node? location == some .directory

def fileAt? (tree : FileTree) (location : Location) : Option Bytes :=
  match tree.node? location with
  | some (.file content) => some content
  | _ => none

def erase (tree : FileTree) (location : Location) : FileTree :=
  { tree with nodes := tree.nodes.filter fun entry => entry.1 != location }

def put (tree : FileTree) (location : Location) (node : Node) : FileTree :=
  { tree with nodes := (tree.erase location).nodes ++ [(location, node)] }

/-- Leaves of a file no more than its first bytes. -/
def cut (tree : FileTree) (location : Location) (count : Nat) : FileTree :=
  match tree.fileAt? location with
  | some content => tree.put location (.file (content.take count))
  | none => tree

/-- The tree when the trouble of the next change is over. -/
def later (tree : FileTree) : FileTree :=
  { tree with outlook := tree.outlook.tail }

/-- The trouble that the next change meets. -/
def trouble? (tree : FileTree) : Option Trouble :=
  tree.outlook.head?.join

/-- Makes a change that happens as a whole or, with a fault, not at all. -/
def change {α : Type} (tree : FileTree)
    (edit : FileTree → Except Fault (FileTree × α)) :
    FileTree × Except Fault α :=
  match tree.trouble? with
  | some trouble => (tree.later, .error (.other trouble.description))
  | none =>
    match edit tree.later with
    | .error fault => (tree.later, .error fault)
    | .ok (changed, value) => (changed, .ok value)

/-- The longest name that a directory can hold, in bytes. -/
def longestName : Nat := 255

/-- The longest path that the system accepts, in bytes. -/
def longestPath : Nat := 4095

/-- The directory above a location; the root is its own. -/
def above (location : Location) : Location :=
  match location.getLast? with
  | some (.name _) => location.dropLast
  | some .root => location
  | _ => location ++ [.up]

/-- The place below a directory that a component leads to, whether or not
something stands there. -/
def step (tree : FileTree) (location : Location) (component : Component) :
    Except Fault Location :=
  if tree.isDirectory location then
    match component with
    | .root => .ok [.root]
    | .here => .ok location
    | .up => .ok (above location)
    | .name name =>
      if longestName < name.utf8ByteSize then .error .nameTooLong
      else .ok (location ++ [.name name])
  else
    .error .notDirectory

/-- Follows components to something that exists. -/
def walk (tree : FileTree) : Location → List Component → Except Fault Location
  | location, [] => .ok location
  | location, component :: rest => do
    let next ← tree.step location component
    if (tree.node? next).isSome then tree.walk next rest else .error .noEntry

def route (path : FilePath) : Except Fault (List Component) :=
  if path.text.toList.contains '\x00' then .error .badName
  else if longestPath < path.text.utf8ByteSize then .error .nameTooLong
  else .ok path.route

/-- The place that a path names, its directories existing. -/
def target (tree : FileTree) (path : FilePath) : Except Fault Location := do
  let components ← route path
  match components.getLast? with
  | some last =>
    let parent ← tree.walk [] components.dropLast
    tree.step parent last
  | none => .error .noEntry

def read (tree : FileTree) (path : FilePath) : Except Fault Bytes := do
  let location ← tree.target path
  match tree.node? location with
  | none => .error .noEntry
  | some .directory => .error .isDirectory
  | some (.file content) =>
    if path.endsInSlash then .error .notDirectory else .ok content

/-- Makes one directory where nothing stands. -/
def makeDirectory (tree : FileTree) (location : Location) :
    FileTree × Except Fault Unit :=
  tree.change fun tree => .ok (tree.put location .directory, ())

/-- Follows components and makes the directories that are missing. -/
def makeWay (tree : FileTree) :
    Location → List Component → FileTree × Except Fault Unit
  | _, [] => (tree, .ok ())
  | location, component :: rest =>
    match tree.step location component with
    | .error fault => (tree, .error fault)
    | .ok next =>
      match tree.node? next with
      | some .directory => tree.makeWay next rest
      | some (.file _) =>
        (tree, .error (if rest.isEmpty then .alreadyExists else .notDirectory))
      | none =>
        match tree.makeDirectory next with
        | (made, .ok ()) => made.makeWay next rest
        | (refused, .error fault) => (refused, .error fault)

def makeDirectories (tree : FileTree) (path : FilePath) :
    FileTree × Except Fault Unit :=
  match route path with
  | .error fault => (tree, .error fault)
  | .ok components => tree.makeWay [] components

/-- Opens a file to be written and tells where it stands.  Whatever it held is
gone. -/
def create (tree : FileTree) (path : FilePath) :
    FileTree × Except Fault Location :=
  tree.change fun tree => do
    let location ← tree.target path
    if tree.isDirectory location || path.endsInSlash then
      .error .isDirectory
    else
      .ok (tree.put location (.file []), location)

/-- Writes all of the content to a file that was just opened.  In trouble only
the beginning of it gets there. -/
def writeAll (tree : FileTree) (file : Location) (content : Bytes) :
    FileTree × Except Fault Unit :=
  let written := tree.later.put file (.file content)
  match tree.trouble? with
  | some trouble =>
    (written.cut file trouble.through, .error (.other trouble.description))
  | none => (written, .ok ())

/-- Waits until what was written to a file is safe.  In trouble the end of it may
be lost. -/
def sync (tree : FileTree) (file : Location) : FileTree × Except Fault Unit :=
  match tree.trouble? with
  | some trouble =>
    (tree.later.cut file trouble.through,
      .error (.other trouble.description))
  | none => (tree.later, .ok ())

/-- Moves a file over whatever file stands at another path.  The destination has
to be called by a name. -/
def rename (tree : FileTree) (source destination : FilePath) :
    FileTree × Except Fault Unit :=
  tree.change fun tree => do
    let origin ← tree.target source
    match tree.fileAt? origin with
    | none => .error .noEntry
    | some content =>
      let goal ← tree.target destination
      if !destination.endsInName then .error .busy
      else if destination.endsInSlash then .error .notDirectory
      else if tree.isDirectory goal then .error .isDirectory
      else .ok ((tree.erase origin).put goal (.file content), ())

def install (tree : FileTree) (path : FilePath) (content : Bytes) : FileTree :=
  let ready :=
    match path.parent? with
    | some parent => (tree.makeDirectories parent).1
    | none => tree
  match ready.create path with
  | (opened, .ok file) => opened.put file (.file content)
  | (refused, .error _) => refused

/-- The tree that holds just the given files. -/
def ofFiles (files : List (FilePath × Bytes)) : FileTree :=
  files.foldl (fun tree file => tree.install file.1 file.2) empty

/-- The paths of all files below the working directory, sorted. -/
def listing (tree : FileTree) : List String :=
  let paths := tree.nodes.filterMap fun
    | (location, .file _) => location.inside?
    | (_, .directory) => none
  paths.mergeSort fun left right => !(right < left)

/-- The name of the file that holds new content until it is complete. -/
def stagingPath (path : FilePath) : FilePath :=
  path.withExtension "tmp"

/-- The steps of replacing a file. -/
inductive WriteStep where
  | makeDirectory
  | create
  | write
  | sync
  | rename
deriving DecidableEq

/-- The step of a write that failed, the path it was about, and the fault. -/
structure WriteFailure where
  step : WriteStep
  path : FilePath
  fault : Fault
deriving DecidableEq

/-- What a write has come to: the tree it left, and what it goes on with unless it
failed. -/
abbrev WriteOutcome (α : Type) := FileTree × Except WriteFailure α

namespace WriteOutcome

variable {α β : Type}

/-- What a step of a write has come to. -/
def ofStep (step : WriteStep) (path : FilePath)
    (outcome : FileTree × Except Fault α) : WriteOutcome α :=
  (outcome.1,
    outcome.2.mapError fun fault =>
      { step := step, path := path, fault := fault })

/-- Goes on from where a step of a write has led, unless it failed. -/
def next (outcome : WriteOutcome α) (step : FileTree → α → WriteOutcome β) :
    WriteOutcome β :=
  match outcome with
  | (tree, .ok value) => step tree value
  | (tree, .error failure) => (tree, .error failure)

end WriteOutcome

/-- Makes the directory for a file, if the path names one. -/
def makeParent (tree : FileTree) (path : FilePath) : WriteOutcome Unit :=
  match path.parent? with
  | some parent =>
    if parent.text.isEmpty then (tree, .ok ())
    else .ofStep .makeDirectory parent (tree.makeDirectories parent)
  | none => (tree, .ok ())

/-- Opens the file beside a path that new content goes to. -/
def openStaging (tree : FileTree) (path : FilePath) : WriteOutcome Location :=
  .ofStep .create (stagingPath path) (tree.create (stagingPath path))

def writeStaging (tree : FileTree) (path : FilePath) (content : Bytes)
    (file : Location) : WriteOutcome Unit :=
  .ofStep .write (stagingPath path) (tree.writeAll file content)

def syncStaging (tree : FileTree) (path : FilePath) (file : Location) :
    WriteOutcome Unit :=
  .ofStep .sync (stagingPath path) (tree.sync file)

/-- Moves new content into place. -/
def moveIn (tree : FileTree) (path : FilePath) : WriteOutcome Unit :=
  .ofStep .rename path (tree.rename (stagingPath path) path)

/-- What is left to do when the content is written. -/
def replaceFromWritten (tree : FileTree) (path : FilePath) (file : Location) :
    WriteOutcome Unit :=
  (tree.syncStaging path file).next fun safe _ => safe.moveIn path

/-- What is left to do when the file for the content is open. -/
def replaceFromOpened (tree : FileTree) (path : FilePath) (content : Bytes)
    (file : Location) : WriteOutcome Unit :=
  (tree.writeStaging path content file).next fun written _ =>
    written.replaceFromWritten path file

/-- What is left to do when the directory is there. -/
def replaceFromMade (tree : FileTree) (path : FilePath) (content : Bytes) :
    WriteOutcome Unit :=
  (tree.openStaging path).next fun opened file =>
    opened.replaceFromOpened path content file

/-- Replaces a file as a whole: makes its directory, writes the new content
beside it, makes sure of it, and moves it into place. -/
def replaceFile (tree : FileTree) (path : FilePath) (content : Bytes) :
    WriteOutcome Unit :=
  (tree.makeParent path).next fun made _ => made.replaceFromMade path content

end FileTree

end Fragboard.Storage
