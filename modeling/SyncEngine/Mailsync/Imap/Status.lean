/-! What a folder engine does around its handlers: the name of its state, the copy of it in the
database, and the guard against endless resyncs. -/
namespace SyncEngine
namespace Imap

/-- How a command can fail: the classes of exceptions that the engine tells apart. -/
inductive Fault where
  | connection
  | missing
  | validation
  | other
deriving DecidableEq, Repr

inductive Exc where
  /-- One of `CONN_RETRY_EXC_CLASSES`, which the handlers retry on. -/
  | connection
  | folderMissing
  | validation
  | uidInvalid (remote cached : Nat)
  | error
deriving DecidableEq, Repr

def Fault.exc : Fault → Exc
  | .connection => .connection
  | .missing => .folderMissing
  | .validation => .validation
  | .other => .error

/-- How a transaction fails: rolled back, or committed with the answer lost. -/
inductive DbFault where
  | refused
  | lost
deriving DecidableEq, Repr

def MAX_UIDINVALID_RESYNCS : Nat := 5

inductive Handler where
  | initialSync
  | poll
  | resyncUids
deriving DecidableEq, Repr

def stateHandlers : List (String × Handler) :=
  [("initial", .initialSync), ("initial uidinvalid", .resyncUids), ("poll", .poll),
    ("poll uidinvalid", .resyncUids)]

/-- The columns of the account that say whether it is synced. -/
structure Account where
  syncShouldRun : Bool
  syncState : String
  syncDisabledReason : Option String
deriving DecidableEq, Repr

namespace Account

def disableSync (account : Account) (reason : String) : Account :=
  { account with syncShouldRun := false, syncDisabledReason := some reason }

def markInvalid (account : Account) : Account :=
  { account.disableSync "invalid credentials" with syncState := "invalid" }

def stopResyncLoop (account : Account) : Account :=
  { account.disableSync "Detected endless uidvalidity resync loop" with syncState := "stopped" }

end Account

/-- The attributes and the columns that `_run_impl` itself reads and writes. -/
structure Status where
  state : String
  uidinvalidCount : Nat
  /-- `ImapFolderSyncStatus.state`, once the folder has a row there. -/
  saved : Option String
  account : Account
deriving DecidableEq, Repr

/-- How one `_run_impl` ends. -/
inductive Ending where
  | returned
  /-- With an exception on which `retry_with_logging` calls it again. -/
  | raised
  /-- With `MailsyncDone`. -/
  | done
deriving DecidableEq, Repr

namespace Status

/-- A transaction of `_run_impl`, and whether it came back without an exception. -/
def commit (fault : Option DbFault) (change : Status → Status) (status : Status) : Bool × Status :=
  match fault with
  | none => (true, change status)
  | some .lost => (false, change status)
  | some .refused => (false, status)

def updateFolderSyncStatus (fault : Option DbFault) (status : Status) : Bool × Status :=
  status.commit fault (fun status => { status with saved := some status.state })

/-- A transaction on the account, and then `raise MailsyncDone()`. -/
def stop (fault : Option DbFault) (change : Account → Account) (status : Status) : Ending × Status :=
  match status.commit fault (fun status => { status with account := change status.account }) with
  | (true, status) => (.done, status)
  | (false, status) => (.raised, status)

/-- What follows once the new state is known. -/
def settle (oldState : String) (fault : Option DbFault) (status : Status) : Ending × Status :=
  if status.state ≠ oldState then
    match status.updateFolderSyncStatus fault with
    | (true, status) => (.returned, status)
    | (false, status) => (.raised, status)
  else if status.state ∈ ["initial", "poll"] then
    -- A normal state transition without any error
    (.returned, { status with uidinvalidCount := 0 })
  else (.returned, status)

/-- `_run_impl` from where the handler has ended. A transaction follows at most once, and `fault`
is how it fails. -/
def runImpl (result : Except Exc String) (fault : Option DbFault) (status : Status) :
    Ending × Status :=
  match result with
  | .ok state => settle status.state fault { status with state }
  | .error (.uidInvalid _ _) =>
    let invalid := { status with
      state := status.state ++ " uidinvalid", uidinvalidCount := status.uidinvalidCount + 1 }
    if MAX_UIDINVALID_RESYNCS < invalid.uidinvalidCount then
      invalid.stop fault Account.stopResyncLoop
    else invalid.settle status.state fault
  | .error .folderMissing => (.done, status)
  | .error .validation => status.stop fault Account.markInvalid
  | .error .connection => (.raised, status)
  | .error .error => (.raised, status)

/-- `_run` before its loop, in a new process: `start_sync` does not change the state, and a new
row has the default. -/
def start (status : Status) : Status where
  state := status.saved.getD "initial"
  uidinvalidCount := 0
  saved := some (status.saved.getD "initial")
  account := status.account

end Status
end Imap
end SyncEngine
