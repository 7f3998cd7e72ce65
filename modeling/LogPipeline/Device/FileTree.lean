/-
Files and directories, as far as log files need them: directories are
made, files are created, appended to, read and removed. An open file
stays what it is when its name is removed or given to another file, so
names lead to numbered contents.

The tree knows two devices, one that takes every byte and one that is
always full.
-/
import LogPipeline.Device.Path
import LogPipeline.Dict

namespace LogPipeline

/-- Why a file operation failed. -/
inductive FileError where
  | noEntry
  | occupied
  | notDirectory
  | isDirectory
  | noSpace
  | invalidArgument
  | nameTooLong
  /-- The path holds a character that no name can hold. -/
  | brokenPath
  | notText
  deriving DecidableEq, Inhabited

namespace FileError

def message : FileError → String
  | noEntry => "No such file or directory (os error 2)"
  | occupied => "File exists (os error 17)"
  | notDirectory => "Not a directory (os error 20)"
  | isDirectory => "Is a directory (os error 21)"
  | invalidArgument => "Invalid argument (os error 22)"
  | noSpace => "No space left on device (os error 28)"
  | nameTooLong => "File name too long (os error 36)"
  | brokenPath => "file name contained an unexpected NUL byte"
  | notText => "stream did not contain valid UTF-8"

end FileError

inductive Device where
  | null
  | full
  deriving DecidableEq, Inhabited

/-- What a name leads to. -/
inductive FileNode where
  | directory
  /-- A file with its contents' number. -/
  | file (id : Nat)
  | device (d : Device)
  deriving DecidableEq, Inhabited

structure FileTree where
  /-- What there is under each path from the root. -/
  nodes : Dict FileNode
  contents : Array ByteArray

/-- Where a path leads: to something, or to a name that is free. -/
inductive FilePlace where
  | taken (path : List String) (node : FileNode)
  /-- `asDirectory`: the path ends in a slash. -/
  | free (path : List String) (asDirectory : Bool)

namespace FileTree

-- ============================================================== paths

/-- The directory that relative paths start from. -/
def workingDirectory : List String := ["work"]

def key (path : List String) : String := String.join (path.map ("/" ++ ·))

/-- The working directory without files, and the devices. -/
def initial : FileTree where
  nodes := Dict.ofList [(key workingDirectory, .directory), (key ["dev"], .directory),
    (key ["dev", "null"], .device .null), (key ["dev", "full"], .device .full)]
  contents := #[]

/-- The most bytes in a name, and in a path. -/
def maxName : Nat := 255
def maxPath : Nat := 4095

/-- Follow names from a node that stands under `here`. -/
def walk (t : FileTree) : (here : List String) → FileNode → List String →
    Except FileError FilePlace
  | here, node, [] => .ok (.taken here node)
  | here, .directory, name :: rest =>
    if name = "" ∨ name = "." then walk t here .directory rest
    else if name = ".." then walk t here.dropLast .directory rest
    else if maxName < name.utf8ByteSize then .error .nameTooLong
    else match t.nodes.get? (key (here ++ [name])) with
      | some node => walk t (here ++ [name]) node rest
      | none =>
        if rest.all (· == "") then .ok (.free (here ++ [name]) !rest.isEmpty)
        else .error .noEntry
  | _, _, _ :: _ => .error .notDirectory

def resolve (t : FileTree) (path : String) : Except FileError FilePlace :=
  let cs := path.toList
  let names := (Path.split cs).map String.ofList
  if cs.contains '\x00' then .error .brokenPath
  else if cs.isEmpty then .error .noEntry
  else if maxPath < path.utf8ByteSize then .error .nameTooLong
  else if cs.head? == some '/' then t.walk [] .directory names
  else t.walk workingDirectory .directory names

-- ========================================================= directories

def makeDirectory (t : FileTree) (path : String) : Except FileError Unit × FileTree :=
  match t.resolve path with
  | .error e => (.error e, t)
  | .ok (.taken ..) => (.error .occupied, t)
  | .ok (.free spot _) => (.ok (), { t with nodes := t.nodes.insert (key spot) .directory })

def isDirectory (t : FileTree) (path : String) : Bool :=
  match t.resolve path with
  | .ok (.taken _ .directory) => true
  | _ => false

/-- A directory that is there already is as good as a new one. -/
def settleDirectory (path : String) : Except FileError Unit × FileTree →
    Except FileError Unit × FileTree
  | (.error e, t) => if t.isDirectory path then (.ok (), t) else (.error e, t)
  | made => made

/-- Make a directory, and first those above it that are missing. -/
def makeDirectoriesFor : (fuel : Nat) → String → FileTree → Except FileError Unit × FileTree
  | 0, _, t => (.error .noEntry, t)
  | fuel + 1, path, t =>
    if path.isEmpty then (.ok (), t)
    else match t.makeDirectory path with
      | (.error .noEntry, t) =>
        match Path.parent? path.toList with
        | none => (.error .noEntry, t)
        | some up =>
          match makeDirectoriesFor fuel (String.ofList up) t with
          | (.error e, t) => (.error e, t)
          | (.ok (), t) => settleDirectory path (t.makeDirectory path)
      | made => settleDirectory path made

def makeDirectories (t : FileTree) (path : String) : Except FileError Unit × FileTree :=
  makeDirectoriesFor (path.length + 1) path t

-- =============================================================== files

/-- Something open for appending. -/
inductive FileTarget where
  | contents (id : Nat)
  | device (d : Device)
  deriving DecidableEq, Inhabited

/-- Create an empty file under a free name. -/
def create (t : FileTree) (path : List String) : Nat × FileTree :=
  (t.contents.size,
    { nodes := t.nodes.insert (key path) (.file t.contents.size)
      contents := t.contents.push .empty })

/-- Open for appending; a file that is not there is created. -/
def openAppend (t : FileTree) (path : String) : Except FileError FileTarget × FileTree :=
  match t.resolve path with
  | .error e => (.error e, t)
  | .ok (.taken _ .directory) => (.error .isDirectory, t)
  | .ok (.taken _ (.file id)) => (.ok (.contents id), t)
  | .ok (.taken _ (.device d)) => (.ok (.device d), t)
  | .ok (.free spot asDirectory) =>
    if asDirectory then (.error .isDirectory, t)
    else
      let (id, t) := t.create spot
      (.ok (.contents id), t)

/-- Remove a name that leads to no directory. -/
def unlink (t : FileTree) (path : String) : Except FileError Unit × FileTree :=
  match t.resolve path with
  | .error e => (.error e, t)
  | .ok (.free ..) => (.error .noEntry, t)
  | .ok (.taken _ .directory) => (.error .isDirectory, t)
  | .ok (.taken spot _) => (.ok (), { t with nodes := t.nodes.erase (key spot) })

/-- Append bytes; a full device takes none. -/
def append (t : FileTree) (bytes : ByteArray) : FileTarget → Except FileError Unit × FileTree
  | .contents id =>
    (.ok (), { t with contents := t.contents.modify id (· ++ bytes) })
  | .device .null => (.ok (), t)
  | .device .full => (if bytes.isEmpty then .ok () else .error .noSpace, t)

/-- Bring what was written to permanent storage, which a device has not. -/
def sync : FileTarget → Except FileError Unit
  | .contents _ => .ok ()
  | .device _ => .error .invalidArgument

def read (t : FileTree) (path : String) : Except FileError ByteArray :=
  match t.resolve path with
  | .error e => .error e
  | .ok (.free ..) => .error .noEntry
  | .ok (.taken _ .directory) => .error .isDirectory
  | .ok (.taken _ (.file id)) => .ok (t.contents.getD id .empty)
  | .ok (.taken _ (.device _)) => .ok .empty

def readText (t : FileTree) (path : String) : Except FileError String :=
  match t.read path with
  | .error e => .error e
  | .ok bytes => match String.fromUTF8? bytes with
    | some s => .ok s
    | none => .error .notText

/-- Replace the contents of a file, which is created if it is not there. -/
def replace (t : FileTree) (path : String) (bytes : ByteArray) :
    Except FileError Unit × FileTree :=
  match t.openAppend path with
  | (.error e, t) => (.error e, t)
  | (.ok (.contents id), t) =>
    (.ok (), { t with contents := t.contents.modify id fun _ => bytes })
  | (.ok target, t) => t.append bytes target

def isThere (t : FileTree) (path : String) : Bool :=
  match t.resolve path with
  | .ok (.taken ..) => true
  | _ => false

end FileTree

end LogPipeline
