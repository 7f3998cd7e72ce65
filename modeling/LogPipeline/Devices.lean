/-
The devices that log output goes to, and a sink for each kind: a file, a
memory record, a stream of the console, a connection to a peer. Opening a
destination gives it a number, and its sink acts on what stands under
that number.
-/
import LogPipeline.Device.FileTree
import LogPipeline.Device.Record
import LogPipeline.Output.Sink

namespace LogPipeline

/-- The streams of the console. -/
inductive ConsoleTarget where
  | stdout
  | stderr
  deriving DecidableEq, Inhabited

namespace ConsoleTarget

def name : ConsoleTarget → String
  | stdout => "stdout"
  | stderr => "stderr"

end ConsoleTarget

/-- A file as its sink sees it; nothing is open once the sink is closed. -/
structure LogFile where
  path : String
  target : Option FileTree.FileTarget
  deriving Inhabited

/-- Whoever listens at an address. -/
structure Peer where
  received : ByteArray
  /-- The peer has hung up, so that bytes sent to it are lost. -/
  gone : Bool

/-- A connection as its sink sees it. -/
structure Connection where
  address : String
  isOpen : Bool
  deriving Inhabited

structure Devices where
  tree : FileTree
  files : Array LogFile
  records : Array MemoryRecord
  stdout : ByteArray
  stderr : ByteArray
  /-- The peers that can be reached, by address. -/
  peers : Dict Peer
  connections : Array Connection

namespace Devices

/-- Devices on which nothing has happened yet. -/
def initial : Devices where
  tree := .initial
  files := #[]
  records := #[]
  stdout := .empty
  stderr := .empty
  peers := .empty
  connections := #[]

instance : Inhabited Devices := ⟨initial⟩

-- =============================================================== files

/-- An error of the system, met while doing something to a log file. -/
def fileError (operation attempt path : String) (e : FileError) : LogError :=
  .io operation ("unable to " ++ attempt ++ " " ++ path) e.message

/-- Make the directory a path stands in, where it names one. -/
def makeParent (path : String) (t : FileTree) : Except LogError Unit × FileTree :=
  match Path.parent? path.toList with
  | none | some [] => (.ok (), t)
  | some up =>
    let dir := String.ofList up
    match t.makeDirectories dir with
    | (.ok (), t) => (.ok (), t)
    | (.error e, t) => (.error (fileError "creating log directory" "create" dir e), t)

/-- Remove the file that a new one is to replace. -/
def removeOld (path : String) (t : FileTree) : Except LogError Unit × FileTree :=
  match t.unlink path with
  | (.ok (), t) | (.error .noEntry, t) => (.ok (), t)
  | (.error e, t) => (.error (fileError "truncating log file" "delete" path e), t)

def openTarget (path : String) (t : FileTree) :
    Except LogError FileTree.FileTarget × FileTree :=
  match t.openAppend path with
  | (.ok target, t) => (.ok target, t)
  | (.error e, t) => (.error (fileError "opening log file" "open" path e), t)

/-- Open a log file, making its directory; without `append` a file that is
there is removed first. -/
def openTree (path : String) (append : Bool) (t : FileTree) :
    Except LogError FileTree.FileTarget × FileTree :=
  match makeParent path t with
  | (.error e, t) => (.error e, t)
  | (.ok (), t) =>
    if append then openTarget path t
    else match removeOld path t with
      | (.error e, t) => (.error e, t)
      | (.ok (), t) => openTarget path t

/-- Open a log file under a new number. -/
def openFile (path : String) (append : Bool) (d : Devices) : Except LogError Nat × Devices :=
  match openTree path append d.tree with
  | (.error e, tree) => (.error e, { d with tree })
  | (.ok target, tree) =>
    (.ok d.files.size, { d with tree, files := d.files.push ⟨path, some target⟩ })

def writeFile (id : Nat) (bytes : ByteArray) (d : Devices) : Except LogError Unit × Devices :=
  let f := d.files.getD id default
  match f.target with
  | none =>
    (.error (.io "writing log file" ("unable to write to " ++ f.path) "file is closed"), d)
  | some target =>
    match d.tree.append bytes target with
    | (.ok (), tree) => (.ok (), { d with tree })
    | (.error e, tree) =>
      (.error (fileError "writing log file" "write to" f.path e), { d with tree })

/-- Nothing is kept back in front of a file, so there is nothing to flush. -/
def flushFile (id : Nat) (d : Devices) : Except LogError Unit × Devices :=
  let f := d.files.getD id default
  match f.target with
  | none => (.error (.writer (f.path ++ " is closed")), d)
  | some _ => (.ok (), d)

def closeFile (id : Nat) (d : Devices) : Except LogError Unit × Devices :=
  let f := d.files.getD id default
  match f.target with
  | none => (.ok (), d)
  | some target =>
    let d := { d with files := d.files.setIfInBounds id { f with target := none } }
    match FileTree.sync target with
    | .ok () => (.ok (), d)
    | .error e => (.error (fileError "closing log file" "sync" f.path e), d)

def fileSink (id : Nat) : Sink Devices :=
  ⟨writeFile id, flushFile id, closeFile id, .empty⟩

-- ============================================================= records

/-- A new record, and its number. -/
def newRecord (d : Devices) : Nat × Devices :=
  (d.records.size, { d with records := d.records.push .empty })

def record (id : Nat) (d : Devices) : MemoryRecord := d.records.getD id default

/-- Run an operation of a record where it stands. -/
def onRecord {α : Type} (id : Nat) (op : MemoryRecord → α × MemoryRecord) (d : Devices) :
    α × Devices :=
  let (a, r) := op (d.record id)
  (a, { d with records := d.records.setIfInBounds id r })

def recordSink (id : Nat) : Sink Devices :=
  ⟨fun bytes => onRecord id (MemoryRecord.write bytes), onRecord id MemoryRecord.flush,
    onRecord id MemoryRecord.close, .empty⟩

-- ============================================================= console

def writeConsole (t : ConsoleTarget) (bytes : ByteArray) (d : Devices) :
    Except LogError Unit × Devices :=
  match t with
  | .stdout => (.ok (), { d with stdout := d.stdout ++ bytes })
  | .stderr => (.ok (), { d with stderr := d.stderr ++ bytes })

def consoleSink (t : ConsoleTarget) : Sink Devices :=
  ⟨writeConsole t, fun d => (.ok (), d), fun d => (.ok (), d), .empty⟩

-- ========================================================= connections

/-- Connect to the peer at an address. -/
def connect (address : String) (d : Devices) : Except LogError Nat × Devices :=
  if d.peers.contains address then
    (.ok d.connections.size, { d with connections := d.connections.push ⟨address, true⟩ })
  else (.error (.io "connecting" ("unable to reach " ++ address) "connection refused"), d)

/-- Send bytes. A connection that is lost stays closed. -/
def send (id : Nat) (bytes : ByteArray) (d : Devices) : Except LogError Unit × Devices :=
  let c := d.connections.getD id default
  if !c.isOpen then (.error (.writer ("connection to " ++ c.address ++ " is closed")), d)
  else match d.peers.get? c.address with
    | some ⟨received, false⟩ =>
      (.ok (), { d with peers := d.peers.insert c.address ⟨received ++ bytes, false⟩ })
    | _ =>
      (.error (.io "sending" ("connection to " ++ c.address ++ " lost") "connection lost"),
        { d with connections := d.connections.setIfInBounds id { c with isOpen := false } })

def hangUp (id : Nat) (d : Devices) : Except LogError Unit × Devices :=
  (.ok (), { d with connections := d.connections.modify id ({ · with isOpen := false }) })

def connectionSink (id : Nat) : Sink Devices :=
  ⟨send id, fun d => (.ok (), d), hangUp id, .empty⟩

end Devices

end LogPipeline
