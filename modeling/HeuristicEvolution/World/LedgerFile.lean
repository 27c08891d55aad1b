import HeuristicEvolution.Failure
import HeuristicEvolution.World.Files

/-!
# Ledgers in files

A ledger is opened where its path leads. Missing directories are made, and a file that is not there
or is empty becomes a ledger without records. A file with other contents is no ledger, and one that
may not be read and written is not opened.

## Main definitions

* `LedgerFault`: why a ledger cannot be opened.
* `Files.openLedger`, `Files.keepLedger`
-/

namespace HeuristicEvolution

/-- Why a ledger cannot be opened. -/
inductive LedgerFault where
  /-- Its directory cannot be made. -/
  | noDirectory (directory : String) (fault : FileFault)
  /-- The system does not give the file out. -/
  | unopened (path : String)
  /-- The file holds something else. -/
  | notLedger
  deriving DecidableEq, Repr, Inhabited

namespace LedgerFault

/-- The fault in words: what could not be done, and then the causes, the nearest first. -/
def chain : LedgerFault → String × List String
  | .noDirectory directory fault =>
    ("failed to create ledger directory " ++ directory, [fault.message])
  | .unopened path =>
    ("failed to open sqlite db",
      ["unable to open database file: " ++ path,
       "Error code 14: Unable to open the database file"])
  | .notLedger =>
    ("file is not a database", ["Error code 26: File opened that is not a database file"])

/-- The fault as a failure. -/
def failure (fault : LedgerFault) : Failure :=
  match fault with
  | .noDirectory _ _ => .system (some fault.chain.1)
  | .unopened _ => .ledger (some fault.chain.1)
  | .notLedger => .ledger none

end LedgerFault

namespace Files

/-- Makes the directory in which a ledger lies. -/
def makeLedgerDirectory (fs : Files) (path : String) : Except LedgerFault Files :=
  match Path.parentText? path with
  | none => .ok fs
  | some parent => (fs.makeDirectories parent).mapError (.noDirectory parent)

/-- Opens the ledger at a path; it is there from then on. A ledger without a path is kept
nowhere. -/
def openLedger (fs : Files) (path : String) : Except LedgerFault (Ledger × Files) := do
  if path.isEmpty then return (.empty, fs)
  let fs ← fs.makeLedgerDirectory path
  if fs.refuses .read path || fs.refuses .write path then throw (.unopened path)
  opened fs
where
  /-- The ledger that a file holds, which may be read and written. -/
  opened (fs : Files) : Except LedgerFault (Ledger × Files) :=
    match fs.entry? path with
    | some (.ledger l) => .ok (l, fs)
    | some (.text s) => if s.isEmpty then created fs else .error .notLedger
    | some (.bytes _) => .error .notLedger
    | some .directory => .error (.unopened path)
    | none => created fs
  /-- An empty ledger in the place of the file. -/
  created (fs : Files) : Except LedgerFault (Ledger × Files) :=
    match fs.writeEntry path (.ledger .empty) with
    | .ok fs => .ok (.empty, fs)
    | .error _ => .error (.unopened path)

/-- Keeps a ledger at its path, which has been opened. -/
def keepLedger (fs : Files) (path : String) (l : Ledger) : Files :=
  match fs.writeEntry path (.ledger l) with
  | .ok fs => fs
  | .error _ => fs

end Files

end HeuristicEvolution
