import SyncEngine.Transactions.Syncback
import SyncEngine.Util.Lookup

/-! The arguments of an action over all attempts of its task. The functions of the actions get the
dictionary of the log entry itself, so what one attempt takes out of it the next one does not find. -/
namespace SyncEngine.ActionArguments
open Syncback (ActionName ACTION_MAX_NR_OF_RETRIES)

/-- What the functions ask of a JSON value. -/
class Value (V : Type) extends BEq V where
  truthy : V → Bool
  emptyList : V

/-- A dictionary of JSON values. -/
abbrev Args (V : Type) := List (String × V)

inductive Exc
  | keyError
  | attributeError
  | assertionError
  | typeError
  | remoteError
deriving DecidableEq, Repr

/-- What an action function asks of the backend, with what it hands over. -/
inductive RemoteCall (V : Type)
  | setRemoteUnread (unread : V)
  | setRemoteStarred (starred : V)
  | remoteMove (destination : V)
  | remoteChangeLabels (removedLabels addedLabels : V)
  | remoteSaveDraft
  | remoteUpdateDraft (oldMessageIdHeader : Option V)
  | remoteDeleteDraft (nylasUid messageIdHeader : Option V)
  | remoteSaveSent
  | remoteDeleteSent (messageIdHeader : Option V)
  | remoteCreateFolder
  | remoteUpdateFolder (oldName newName : V)
  | remoteDeleteFolder
  | remoteCreateLabel
  | remoteUpdateLabel (oldName newName : V)
  | remoteDeleteLabel
  | remoteCreateEvent (extraArgs : Args V)
  | remoteUpdateEvent (eventData : Option V) (extraArgs : Args V)
  | remoteDeleteEvent (eventUid calendarName calendarUid : Option V) (extraArgs : Args V)
  | sendInvite (inviteType : String) (participants : Option V)

structure Draft (V : Type) where
  isDraft : Bool
  version : V

/-- What one attempt finds in the database, and how the calls and commits that it makes end. -/
structure Outside (V : Type) where
  message : Option (Draft V)
  account : Bool
  event : Bool
  /-- The module of the account's provider in the registry. -/
  backend : Bool
  gmail : Bool
  emailedEvents : Bool
  raises : RemoteCall V → Option Exc
  /-- Marking the entries as successful has raised. -/
  unmarked : Bool

/-- A function that is given the dictionary and leaves it in some state, whether or not it raises. -/
abbrev Handler (V α : Type) := ExceptT Exc (StateM (Args V)) α

section Handlers
variable {V : Type}

def Handler.exec (handler : Handler V α) (args : Args V) : Except Exc α × Args V := handler.run.run args

/-- `args[key]` -/
def item (key : String) : Handler V V := do
  match (← get).lookup key with
  | some value => return value
  | none => throw .keyError

/-- `args.get(key)` -/
def getItem (key : String) : Handler V (Option V) := do return (← get).lookup key

/-- `args.pop(key, None)` -/
def pop (key : String) : Handler V (Option V) := do
  let value ← getItem key
  modify fun args => args.filter (·.1 ≠ key)
  return value

/-- `assert condition`, or something that is `None` where it must not be. -/
def require (exc : Exc) (condition : Bool) : Handler V Unit :=
  if condition then return else throw exc

def call (outside : Outside V) (remoteCall : RemoteCall V) : Handler V Unit :=
  match outside.raises remoteCall with
  | some exc => throw exc
  | none => return

variable [Value V] (outside : Outside V)

def markUnread : Handler V Unit := do call outside (.setRemoteUnread (← item "unread"))

def markStarred : Handler V Unit := do call outside (.setRemoteStarred (← item "starred"))

def move : Handler V Unit := do call outside (.remoteMove (← item "destination"))

def changeLabels : Handler V Unit := do
  let addedLabels ← item "added_labels"
  let removedLabels ← item "removed_labels"
  call outside (.remoteChangeLabels removedLabels addedLabels)

/-- Both functions that save a draft look whether it is still the one to save. -/
def whenCurrent (version : Option V) (saves : Handler V Unit) : Handler V Unit :=
  match outside.message with
  | none => return
  | some message => if !message.isDraft || version != some message.version then return else saves

def saveDraft : Handler V Unit := do
  let version ← getItem "version"
  whenCurrent outside version (call outside .remoteSaveDraft)

def updateDraft : Handler V Unit := do
  let version ← getItem "version"
  let oldMessageIdHeader ← getItem "old_message_id_header"
  whenCurrent outside version (call outside (.remoteUpdateDraft oldMessageIdHeader))

def deleteDraft : Handler V Unit := do
  let nylasUid ← getItem "nylas_uid"
  let messageIdHeader ← getItem "message_id_header"
  require .assertionError (nylasUid.any Value.truthy || messageIdHeader.any Value.truthy)
  call outside (.remoteDeleteDraft nylasUid messageIdHeader)

def deleteSentEmail : Handler V Unit := do
  let messageIdHeader ← getItem "message_id_header"
  require .assertionError (messageIdHeader.any Value.truthy)
  call outside (.remoteDeleteSent messageIdHeader)

def updateFolder : Handler V Unit := do
  let oldName ← item "old_name"
  let newName ← item "new_name"
  call outside (.remoteUpdateFolder oldName newName)

def updateLabel : Handler V Unit := do
  let oldName ← item "old_name"
  let newName ← item "new_name"
  call outside (.remoteUpdateLabel oldName newName)

/-- Google accounts have the invitations sent by Google. -/
def whenNotifying (invites : Handler V Unit) : Handler V Unit := do
  let notifyParticipants ← getItem "notify_participants"
  if notifyParticipants.any Value.truthy && !outside.gmail then invites else return

def createEvent : Handler V Unit := do
  require .attributeError outside.account
  require .keyError outside.backend
  call outside (.remoteCreateEvent (← get))
  whenNotifying outside do
    let cancelledParticipants ← getItem "cancelled_participants"
    call outside (.sendInvite "request" none)
    if cancelledParticipants.any (· != Value.emptyList) then
      call outside (.sendInvite "cancel" cancelledParticipants)

def updateEvent : Handler V Unit := do
  let eventData ← getItem "event_data"
  require .attributeError (outside.account && outside.event)
  if outside.emailedEvents then return
  require .keyError outside.backend
  call outside (.remoteUpdateEvent eventData (← get))
  whenNotifying outside (call outside (.sendInvite "update" none))

def deleteEvent : Handler V Unit := do
  require .attributeError outside.account
  require .keyError outside.backend
  let eventUid ← pop "event_uid"
  let calendarName ← pop "calendar_name"
  let calendarUid ← pop "calendar_uid"
  require .attributeError outside.event
  if outside.emailedEvents then return
  call outside (.remoteDeleteEvent eventUid calendarName calendarUid (← get))
  whenNotifying outside (call outside (.sendInvite "cancel" none))

/-- `MAIL_ACTION_FUNCTION_MAP` and `EVENT_ACTION_FUNCTION_MAP` -/
def functionForAction : ActionName → Handler V Unit
  | .markUnread => markUnread outside
  | .markStarred => markStarred outside
  | .move => move outside
  | .changeLabels => changeLabels outside
  | .saveDraft => saveDraft outside
  | .updateDraft => updateDraft outside
  | .deleteDraft => deleteDraft outside
  | .saveSentEmail => call outside .remoteSaveSent
  | .deleteSentEmail => deleteSentEmail outside
  | .createFolder => call outside .remoteCreateFolder
  | .createLabel => call outside .remoteCreateLabel
  | .updateFolder => updateFolder outside
  | .deleteFolder => call outside .remoteDeleteFolder
  | .updateLabel => updateLabel outside
  | .deleteLabel => call outside .remoteDeleteLabel
  | .createEvent => createEvent outside
  | .deleteEvent => deleteEvent outside
  | .updateEvent => updateEvent outside

/-- The functions with a parameter for the extra arguments. -/
def takesArgs : ActionName → Bool
  | .saveSentEmail | .createFolder | .createLabel | .deleteFolder | .deleteLabel => false
  | _ => true

end Handlers

/-! ## Attempts -/

/-- The arguments that the function of an action is called with. -/
structure Invocation (V : Type) where
  accountId : Nat
  records : List Nat
  /-- Left out when the dictionary is empty. -/
  extraArgs : Option (Args V)

/-- An entry of a task: the record that it is about and how often it has failed. -/
structure Entry where
  recordId : Nat
  retries : Nat
deriving DecidableEq, Repr

/-- A task with the entries that are still pending when it starts. Only `change_labels` is merged. -/
structure Task (V : Type) where
  action : ActionName
  accountId : Nat
  entries : List Entry
  extraArgs : Args V
  single : action = .changeLabels ∨ entries.length = 1

section Attempts
variable {V : Type} [Value V]

def invocation (task : Task V) (args : Args V) : Invocation V where
  accountId := task.accountId
  records := task.entries.map Entry.recordId
  extraArgs := if args = [] then none else some args

/-- `_execute_timed_action`, and the commits that mark the entries as successful. -/
def execute (task : Task V) (outside : Outside V) (args : Args V) : Except Exc Unit × Args V :=
  if args.isEmpty = takesArgs task.action then (.error .typeError, args)
  else
    match (functionForAction outside task.action).exec args with
    | (.error exc, args) => (.error exc, args)
    | (.ok _, args) => (if outside.unmarked then .error .remoteError else .ok (), args)

/-- The entries of a failed attempt are counted, and the task ends with them if one has failed for the last
time; if another one has not, an assertion ends it. -/
def exhausted (failures : Nat) (entries : List Entry) : Bool :=
  entries.any fun entry => entry.retries + failures + 1 = ACTION_MAX_NR_OF_RETRIES

/-- The calls of one execution, whose attempts meet these surroundings one after the other. -/
def attempts (task : Task V) : Nat → Args V → List (Outside V) → List (Invocation V)
  | _, _, [] => []
  | failures, args, outside :: rest =>
    if failures < ACTION_MAX_NR_OF_RETRIES then
      invocation task args ::
        match execute task outside args with
        | (.ok _, _) => []
        | (.error _, args) =>
          if exhausted failures task.entries then [] else attempts task (failures + 1) args rest
    else []

def executeWithLock (task : Task V) (outsides : List (Outside V)) : List (Invocation V) :=
  if task.entries = [] then [] else attempts task 0 task.extraArgs outsides

end Attempts

/-- What `delete_event` takes out of the dictionary. -/
def poppedKeys : List String := ["event_uid", "calendar_name", "calendar_uid"]

/-- The first attempt takes nothing that another attempt would need. -/
def Steady {V : Type} (task : Task V) : Prop :=
  task.action = .deleteEvent → (∃ entry ∈ task.entries, entry.retries + 1 = ACTION_MAX_NR_OF_RETRIES) ∨
    ∀ key ∈ poppedKeys, key ∉ task.extraArgs.map Prod.fst

/-! ## What the functions leave of the dictionary -/
section Keeps
variable {V α β : Type}

@[simp] theorem exec_pure (value : α) (args : Args V) :
    Handler.exec (pure value) args = (.ok value, args) := rfl

@[simp] theorem exec_throw (exc : Exc) (args : Args V) :
    (throw exc : Handler V α).exec args = (.error exc, args) := rfl

@[simp] theorem exec_get (args : Args V) : Handler.exec get args = (.ok args, args) := rfl

@[simp] theorem exec_modify (change : Args V → Args V) (args : Args V) :
    Handler.exec (modify change) args = (.ok (), change args) := rfl

theorem exec_bind (handler : Handler V α) (rest : α → Handler V β) (args : Args V) :
    Handler.exec (handler >>= rest) args = match handler.exec args with
      | (.ok value, args) => (rest value).exec args
      | (.error exc, args) => (.error exc, args) := by
  unfold Handler.exec
  rw [ExceptT.run_bind, StateT.run_bind]
  cases outcome : StateT.run (ExceptT.run handler) args with
  | mk result left => cases result <;> rfl

/-- The dictionary is left as it was, also when an exception is raised. -/
def Keeps (args : Args V) (handler : Handler V α) : Prop := (handler.exec args).2 = args

variable {args : Args V}

theorem keeps_pure (value : α) : Keeps args (pure value) := rfl

theorem keeps_throw (exc : Exc) : Keeps args (throw exc : Handler V α) := rfl

theorem keeps_get : Keeps args get := rfl

theorem keeps_bind {handler : Handler V α} {rest : α → Handler V β} (first : Keeps args handler)
    (later : ∀ value, Keeps args (rest value)) : Keeps args (handler >>= rest) := by
  unfold Keeps at first ⊢
  rw [exec_bind]
  split
  next value left ran =>
    rw [ran] at first
    cases first
    exact later value
  next exc left ran =>
    rw [ran] at first
    exact first

theorem keeps_ite {condition : Prop} [Decidable condition] {first second : Handler V α}
    (yes : Keeps args first) (no : Keeps args second) :
    Keeps args (if condition then first else second) := by
  split
  · exact yes
  · exact no

theorem keeps_item (key : String) : Keeps args (item key) := by
  refine keeps_bind keeps_get fun _ => ?_
  split
  · exact keeps_pure _
  · exact keeps_throw _

theorem keeps_getItem (key : String) : Keeps args (getItem key) :=
  keeps_bind keeps_get fun _ => keeps_pure _

/-- There is nothing to take out. -/
theorem keeps_pop {key : String} (absent : key ∉ args.map Prod.fst) : Keeps args (pop key) := by
  refine keeps_bind (keeps_getItem _) fun value => keeps_bind ?_ fun _ => keeps_pure _
  refine List.filter_eq_self.mpr fun entry member => ?_
  simpa using ne_of_mem_of_not_mem (List.mem_map_of_mem member) absent

theorem keeps_require (exc : Exc) (condition : Bool) : Keeps args (require exc condition) :=
  keeps_ite (keeps_pure _) (keeps_throw _)

theorem keeps_call (outside : Outside V) (remoteCall : RemoteCall V) :
    Keeps args (call outside remoteCall) := by
  unfold call
  split
  · exact keeps_throw _
  · exact keeps_pure _

variable [Value V] {outside : Outside V}

theorem keeps_whenCurrent {version : Option V} {saves : Handler V Unit} (kept : Keeps args saves) :
    Keeps args (whenCurrent outside version saves) := by
  unfold whenCurrent
  split
  · exact keeps_pure _
  · exact keeps_ite (keeps_pure _) kept

theorem keeps_whenNotifying {invites : Handler V Unit} (kept : Keeps args invites) :
    Keeps args (whenNotifying outside invites) :=
  keeps_bind (keeps_getItem _) fun _ => keeps_ite kept (keeps_pure _)

theorem keeps_createEvent : Keeps args (createEvent outside) := by
  refine keeps_bind (keeps_require _ _) fun _ => keeps_bind (keeps_require _ _) fun _ => ?_
  refine keeps_bind keeps_get fun _ => keeps_bind (keeps_call _ _) fun _ => keeps_whenNotifying ?_
  refine keeps_bind (keeps_getItem _) fun _ => keeps_bind (keeps_call _ _) fun _ => ?_
  exact keeps_ite (keeps_call _ _) (keeps_pure _)

theorem keeps_updateEvent : Keeps args (updateEvent outside) := by
  refine keeps_bind (keeps_getItem _) fun _ => keeps_bind (keeps_require _ _) fun _ => ?_
  refine keeps_ite (keeps_pure _) ?_
  refine keeps_bind (keeps_require _ _) fun _ => keeps_bind keeps_get fun _ => ?_
  exact keeps_bind (keeps_call _ _) fun _ => keeps_whenNotifying (keeps_call _ _)

theorem keeps_deleteEvent (absent : ∀ key ∈ poppedKeys, key ∉ args.map Prod.fst) :
    Keeps args (deleteEvent outside) := by
  have pops : ∀ key ∈ poppedKeys, Keeps args (pop key) := fun key member => keeps_pop (absent key member)
  refine keeps_bind (keeps_require _ _) fun _ => keeps_bind (keeps_require _ _) fun _ => ?_
  refine keeps_bind (pops _ (by simp [poppedKeys])) fun _ => ?_
  refine keeps_bind (pops _ (by simp [poppedKeys])) fun _ => ?_
  refine keeps_bind (pops _ (by simp [poppedKeys])) fun _ => ?_
  refine keeps_bind (keeps_require _ _) fun _ => keeps_ite (keeps_pure _) ?_
  refine keeps_bind keeps_get fun _ => keeps_bind (keeps_call _ _) fun _ => ?_
  exact keeps_whenNotifying (keeps_call _ _)

/-- All functions but one read the dictionary and leave it alone. -/
theorem keeps_functionForAction {action : ActionName}
    (steady : action = .deleteEvent → ∀ key ∈ poppedKeys, key ∉ args.map Prod.fst) :
    Keeps args (functionForAction outside action) := by
  cases action with
  | markUnread | markStarred | move => exact keeps_bind (keeps_item _) fun _ => keeps_call _ _
  | changeLabels | updateFolder | updateLabel =>
    exact keeps_bind (keeps_item _) fun _ => keeps_bind (keeps_item _) fun _ => keeps_call _ _
  | saveDraft => exact keeps_bind (keeps_getItem _) fun _ => keeps_whenCurrent (keeps_call _ _)
  | updateDraft =>
    refine keeps_bind (keeps_getItem _) fun _ => keeps_bind (keeps_getItem _) fun _ => ?_
    exact keeps_whenCurrent (keeps_call _ _)
  | deleteDraft =>
    refine keeps_bind (keeps_getItem _) fun _ => keeps_bind (keeps_getItem _) fun _ => ?_
    exact keeps_bind (keeps_require _ _) fun _ => keeps_call _ _
  | deleteSentEmail =>
    exact keeps_bind (keeps_getItem _) fun _ => keeps_bind (keeps_require _ _) fun _ => keeps_call _ _
  | saveSentEmail | createFolder | createLabel | deleteFolder | deleteLabel => exact keeps_call _ _
  | createEvent => exact keeps_createEvent
  | updateEvent => exact keeps_updateEvent
  | deleteEvent => exact keeps_deleteEvent (steady rfl)

end Keeps

/-! ## All attempts of a task -/
section Steadiness
variable {V : Type} [Value V] {task : Task V} {args : Args V} {outside : Outside V}

theorem execute_keeps (kept : Keeps args (functionForAction outside task.action)) :
    (execute task outside args).2 = args := by
  unfold execute
  split
  · rfl
  · unfold Keeps at kept
    split <;> rename_i ran <;> rw [ran] at kept <;> exact kept

theorem attempts_same (kept : ∀ outside, Keeps args (functionForAction outside task.action))
    (failures : Nat) (outsides : List (Outside V)) :
    ∀ call ∈ attempts task failures args outsides, call = invocation task args := by
  induction outsides generalizing failures with
  | nil => exact fun _ member => by cases member
  | cons outside rest ih =>
    unfold attempts
    split
    · have same : (execute task outside args).2 = args := execute_keeps (kept outside)
      split
      · simp
      next exc left ran =>
        rw [ran] at same
        cases same
        split
        · simp
        · exact List.forall_mem_cons.mpr ⟨rfl, ih (failures + 1)⟩
    · simp

/-- After a failure that is the last one there is no other attempt. -/
theorem attempts_once (last : exhausted 0 task.entries = true) (outsides : List (Outside V)) :
    ∀ call ∈ attempts task 0 args outsides, call = invocation task args := by
  cases outsides with
  | nil => exact fun _ member => by cases member
  | cons outside rest =>
    unfold attempts
    split
    · split <;> simp
    · simp

/-- The calendar server cannot be reached. -/
def unreachable (V : Type) : Outside V where
  message := none
  account := true
  event := true
  backend := true
  gmail := true
  emailedEvents := false
  raises _ := some .remoteError
  unmarked := false

theorem execute_unreachable (deletes : task.action = .deleteEvent) (given : args ≠ []) :
    execute task (unreachable V) args =
      (.error .remoteError, args.filter fun entry => entry.1 ∉ poppedKeys) := by
  have ran : (deleteEvent (unreachable V)).exec args =
      (.error .remoteError, args.filter fun entry => entry.1 ∉ poppedKeys) := by
    have both : (((args.filter (·.1 ≠ "event_uid")).filter (·.1 ≠ "calendar_name")).filter
        (·.1 ≠ "calendar_uid")) = args.filter fun entry => entry.1 ∉ poppedKeys := by
      rw [List.filter_filter, List.filter_filter]
      refine List.filter_congr fun entry _ => ?_
      simp only [poppedKeys, List.mem_cons, List.not_mem_nil, or_false, not_or]
      grind
    rw [← both]
    simp only [deleteEvent, require, pop, getItem, call, unreachable, exec_bind, exec_pure, exec_get,
      exec_modify, exec_throw, if_true, Bool.false_eq_true, if_false]
  unfold execute
  rw [deletes, if_neg (by simpa [takesArgs] using given)]
  simp only [functionForAction, ran]

/-- An action whose dictionary loses something at the first failure is called with something else. -/
theorem unsteady_differs (deletes : task.action = .deleteEvent) (more : exhausted 0 task.entries = false)
    (key_member : key ∈ poppedKeys) (given : key ∈ task.extraArgs.map Prod.fst) :
    ∃ outsides, ∃ first ∈ executeWithLock task outsides, ∃ second ∈ executeWithLock task outsides,
      first ≠ second := by
  have some : task.extraArgs ≠ [] := by
    rintro none
    rw [none] at given
    cases given
  have pending : task.entries ≠ [] := by
    rintro none
    rcases task.single with other | one
    · rw [deletes] at other
      cases other
    · rw [none] at one
      cases one
  refine ⟨[unreachable V, unreachable V], invocation task task.extraArgs, ?_,
    invocation task (task.extraArgs.filter fun entry => entry.1 ∉ poppedKeys), ?_, ?_⟩
  · simp [executeWithLock, pending, attempts, ACTION_MAX_NR_OF_RETRIES]
  · simp [executeWithLock, pending, attempts, ACTION_MAX_NR_OF_RETRIES, execute_unreachable deletes some, more]
  · intro same
    have kept := congrArg Invocation.extraArgs same
    simp only [invocation, if_neg some] at kept
    split at kept
    · cases kept
    · have lost := Option.some.inj kept
      obtain ⟨entry, member, rfl⟩ := List.mem_map.mp given
      rw [lost] at member
      simpa [key_member] using (List.mem_filter.mp member).2

end Steadiness

/-- All calls of one execution hand over the same account, records and arguments exactly when the action
is steady. -/
theorem attempts_alike_iff (V : Type) [Value V] (task : Task V) :
    (∀ outsides, ∀ first ∈ executeWithLock task outsides, ∀ second ∈ executeWithLock task outsides,
      first = second) ↔ Steady task := by
  constructor
  · intro alike deletes
    by_contra unsteady
    obtain ⟨more, takes⟩ := not_or.mp unsteady
    push Not at takes
    obtain ⟨key, member, given⟩ := takes
    have unfinished : exhausted 0 task.entries = false := by
      simpa [exhausted] using more
    obtain ⟨outsides, first, here, second, there, differ⟩ :=
      unsteady_differs deletes unfinished member given
    exact differ (alike outsides first here second there)
  · intro steady outsides
    have same : ∀ call ∈ executeWithLock task outsides, call = invocation task task.extraArgs := by
      unfold executeWithLock
      split
      · simp
      · by_cases last : exhausted 0 task.entries = true
        · exact attempts_once last outsides
        · refine attempts_same (fun outside => keeps_functionForAction fun deletes => ?_) 0 outsides
          refine (steady deletes).resolve_left fun finished => last ?_
          simpa [exhausted] using finished
    intro first here second there
    rw [same first here, same second there]

/-! ## A deletion that is tried twice -/
namespace Trial

inductive Json
  | bool (value : Bool)
  | string (value : String)
  | list (items : List String)
deriving BEq

instance : Value Json where
  truthy
    | .bool value => value
    | .string value => value ≠ ""
    | .list items => items ≠ []
  emptyList := .list []

/-- What the API schedules for an event that is deleted. -/
def deletion : Task Json where
  action := .deleteEvent
  accountId := 1
  entries := [⟨7, 0⟩]
  extraArgs := [("event_uid", .string "e1"), ("calendar_name", .string "Work"),
    ("calendar_uid", .string "work@example.com"), ("notify_participants", .bool false)]
  single := .inr rfl

theorem tried_twice : executeWithLock deletion [unreachable Json, unreachable Json] =
    [⟨1, [7], some deletion.extraArgs⟩, ⟨1, [7], some [("notify_participants", .bool false)]⟩] := rfl

end Trial

open Trial in
/-- The second attempt does not know any more which event it has to delete. -/
theorem second_attempt_forgets : ¬ ∀ (task : Task Json) (outsides : List (Outside Json)),
    ∀ first ∈ executeWithLock task outsides, ∀ second ∈ executeWithLock task outsides,
      first = second := by
  intro alike
  have same := alike deletion [unreachable Json, unreachable Json]
  rw [tried_twice] at same
  have lost := congrArg Invocation.extraArgs (same _ (.head _) _ (.tail _ (.head _)))
  simp [deletion] at lost

end SyncEngine.ActionArguments
