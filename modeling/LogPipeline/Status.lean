/-
The pipeline's own reports: kept in a bounded history, echoed to standard
error from a level on, and handed to subscribers. A subscriber who does
not keep up loses the newest entries; the history loses the oldest. The
time of a report plays no part in any of this, and is not kept.
-/
import LogPipeline.Level

namespace LogPipeline

structure StatusEntry where
  level : Level
  component : String
  message : String
  deriving DecidableEq, Inhabited

namespace StatusEntry

/-- The line shown to operators. -/
def display (e : StatusEntry) : String :=
  let mark := match e.level with
    | .fatal | .error => "[LOGGER ERROR]"
    | .warn => "[LOGGER WARNING]"
    | _ => "[LOGGER]"
  mark ++ " " ++ e.component ++ ": " ++ e.message

end StatusEntry

/-- A status log with its history, the lines it has echoed, and the
entries that wait for each subscriber. -/
structure StatusLog where
  capacity : Nat
  echo : Level
  history : List StatusEntry
  echoed : List String
  /-- The subscribers by number, each with its waiting entries. -/
  queues : List (Nat × List StatusEntry)
  /-- The number of the next subscriber. -/
  nextSubscriber : Nat
  deriving Inhabited

namespace StatusLog

/-- Entries kept when nothing else is asked for. -/
def defaultHistory : Nat := 200

/-- Entries that may wait for one subscriber. -/
def subscriberCapacity : Nat := 1024

/-- A history keeps one entry at least. -/
def withSettings (history : Nat) (echo : Level) : StatusLog where
  capacity := max 1 history
  echo := echo
  history := []
  echoed := []
  queues := []
  nextSubscriber := 0

def standard : StatusLog := withSettings defaultHistory .warn

/-- A log that echoes nothing. -/
def silent : StatusLog := withSettings defaultHistory .off

/-- The log echoes entries of this level. -/
def isEchoed (s : StatusLog) (level : Level) : Bool :=
  s.echo ≠ .off && level.isAtLeastAsSpecificAs s.echo

/-- Offer an entry to a queue; a full queue does not take it. -/
def offer (e : StatusEntry) (queue : List StatusEntry) : List StatusEntry :=
  if queue.length < subscriberCapacity then queue ++ [e] else queue

/-- Keep an entry, dropping the oldest one of a full history. -/
def keep (capacity : Nat) (history : List StatusEntry) (e : StatusEntry) : List StatusEntry :=
  (if capacity ≤ history.length then history.drop 1 else history) ++ [e]

def log (s : StatusLog) (level : Level) (component message : String) : StatusLog :=
  let e : StatusEntry := ⟨level, component, message⟩
  { s with
    echoed := if s.isEchoed level then s.echoed ++ [e.display] else s.echoed
    queues := s.queues.map fun (id, queue) => (id, offer e queue)
    history := keep s.capacity s.history e }

def error (s : StatusLog) (component message : String) : StatusLog :=
  s.log .error component message

def warn (s : StatusLog) (component message : String) : StatusLog :=
  s.log .warn component message

def info (s : StatusLog) (component message : String) : StatusLog :=
  s.log .info component message

/-- A new subscriber, who gets the entries logged from now on. -/
def subscribe (s : StatusLog) : Nat × StatusLog :=
  (s.nextSubscriber,
    { s with
      queues := s.queues ++ [(s.nextSubscriber, [])]
      nextSubscriber := s.nextSubscriber + 1 })

/-- The entries that wait for a subscriber, taken out. -/
def receive (s : StatusLog) (id : Nat) : List StatusEntry × StatusLog :=
  ((s.queues.lookup id).getD [],
    { s with queues := s.queues.map fun (i, queue) => (i, if i = id then [] else queue) })

def unsubscribe (s : StatusLog) (id : Nat) : StatusLog :=
  { s with queues := s.queues.filter (·.1 ≠ id) }

/-- How many kept entries are at least as specific as `level`. -/
def countAtLeast (s : StatusLog) (level : Level) : Nat :=
  s.history.countP (·.level.isAtLeastAsSpecificAs level)

/-- Forget the history. -/
def clear (s : StatusLog) : StatusLog := { s with history := [] }

end StatusLog

end LogPipeline
