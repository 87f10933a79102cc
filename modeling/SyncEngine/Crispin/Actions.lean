import SyncEngine.Crispin.Client

/-! The syncback actions that a batch runs one after the other on a single client. -/
namespace SyncEngine
namespace Crispin
open Cooperative

/-- `if condition: routine()` -/
def onlyIf (condition : Bool) (routine : Call Unit) : Call Unit :=
  if condition then routine else .ret ()

/-- `uids_by_folder` -/
def uidsByFolder : Call (List (String × List Nat)) := query (fun s => s.reply.uidsByFolder)

/-- `_set_flag`; adding and removing a flag differ only in the command they send. -/
def setFlag : Call Unit := do
  let uidsForMessage ← uidsByFolder
  .each uidsForMessage fun (folderName, _) => do
    selectFolderIfNecessary folderName
    uidCommand folderName

/-- The copy to the destination, and the deletion of what was copied. -/
def remoteMove : Call Unit := do
  let uidsForMessage ← uidsByFolder
  .each uidsForMessage fun (folderName, _) => do
    selectFolderIfNecessary folderName
    uidCommand folderName
    deleteUids folderName

def remoteChangeLabels (removedLabels addedLabels : List String) : Call Unit := do
  let uidsForMessage ← uidsByFolder
  .each uidsForMessage fun (folderName, _) => do
    selectFolderIfNecessary folderName
    onlyIf (0 < addedLabels.length) (uidCommand folderName)
    onlyIf (0 < removedLabels.length) (uidCommand folderName)

def remoteSaveDraft : Call Unit := do
  let drafts ← folderNames "drafts"
  match drafts with
  | [] => .ret ()
  | folderName :: _ => do
    selectFolderIfNecessary folderName
    saveDraft

def remoteUpdateDraft (provider : Provider) (oldMessageIdHeader : Option String) : Call Unit := do
  let drafts ← folderNames "drafts"
  match drafts with
  | [] => .ret ()
  | folderName :: _ => do
    selectFolderIfNecessary folderName
    let (_, existingNewDraft) ← findByHeader provider
    onlyIf existingNewDraft.isEmpty saveDraft
    match oldMessageIdHeader with
    | none => .ret ()
    | some _ => do
      let _ ← deleteDraft provider
      .ret ()

def remoteDeleteDraft (provider : Provider) : Call Unit := do
  let drafts ← folderNames "drafts"
  match drafts with
  | [] => .ret ()
  | _ :: _ => do
    let _ ← deleteDraft provider
    .ret ()

def remoteDeleteSent (provider : Provider) (deleteMultiple : Bool) : Call Unit := do
  let sent ← folderNames "sent"
  match sent with
  | [] => .ret ()
  | _ :: _ => do
    let _ ← deleteSentMessage provider deleteMultiple
    .ret ()

def remoteSaveSent : Call Unit := do
  let messageExists ← query (fun s => s.reply.messageExists)
  if messageExists then do
    let sent ← folderNames "sent"
    match sent with
    | [] => .ret ()
    | folderName :: _ => do
      selectFolderIfNecessary folderName
      createMessage
  else .ret ()

inductive Action where
  | setFlag
  | move
  | changeLabels (removedLabels addedLabels : List String)
  | saveDraft
  | updateDraft (oldMessageIdHeader : Option String)
  | deleteDraft
  | deleteSent (deleteMultiple : Bool)
  | saveSent
  | createFolder
  | updateFolder (oldName newName : String)
  | deleteFolder (name : String)
deriving Repr

def Action.routine (provider : Provider) : Action → Call Unit
  | .setFlag => Crispin.setFlag
  | .move => remoteMove
  | .changeLabels removedLabels addedLabels => remoteChangeLabels removedLabels addedLabels
  | .saveDraft => remoteSaveDraft
  | .updateDraft oldMessageIdHeader => remoteUpdateDraft provider oldMessageIdHeader
  | .deleteDraft => remoteDeleteDraft provider
  | .deleteSent deleteMultiple => remoteDeleteSent provider deleteMultiple
  | .saveSent => remoteSaveSent
  | .createFolder => call .ask (fun _ => .ok ())
  | .updateFolder oldName newName => call (.rename oldName newName) (fun _ => .ok ())
  | .deleteFolder name => call (.deleteFolder name) (fun _ => .ok ())

end Crispin
end SyncEngine
