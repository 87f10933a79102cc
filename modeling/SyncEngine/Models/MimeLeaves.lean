import Mathlib.Data.List.ModifyLast
import SyncEngine.Models.ParsingErrors
import SyncEngine.Util.Raising

/-! Where each leaf of a downloaded MIME message is filed: as an attachment, whose row hangs on the
message before it has its data, or in one of the texts that the body is chosen from. -/
namespace SyncEngine.MimeLeaves
open Synced

/-- A row of `part` with its block, as far as it has been filled in. -/
structure Attachment where
  filename : Option Unicode
  contentType : Unicode
  contentId : Option Unicode
  contentDisposition : Option Unicode
  data : Option Bytes
  dataSha256 : Option String
deriving DecidableEq, Repr

/-- The message while its leaves are read. Its columns are in `msg`, and its attachments in `parts`. -/
structure Building where
  msg : SyncedMessage
  parts : List Attachment
  blockstore : Blockstore
  htmlParts : List Unicode
  plainParts : List Unicode

/-- `data or ''`, with text in UTF-8. -/
def toBytes : Option Data → Bytes
  | none => []
  | some (.unicode text) => text.flatMap String.utf8EncodeChar
  | some (.bytes data) => data

section Reading
variable (save : Bytes → Option PyError) (lib : Library)

/-- `save_to_blockstore`, which may raise what the store raises for these data. -/
def store (data : Bytes) : Except PyError (Blockstore → Blockstore) :=
  match if data = [] then none else save data with
  | some e => .error e
  | none => .ok (saveToBlockstore (lib.sha256 data) data)

def Building.amend (change : Attachment → Attachment) (self : Building) : Building :=
  { self with parts := self.parts.modifyLast change }

/-- The attributes in the order in which `_save_attachment` assigns them. The part hangs on the message
from the start, and its block has its data before they are in the store. -/
def saveAttachment (data : Option Data) (contentDisposition contentType : Unicode)
    (filename contentId : Option Unicode) : List (Assignment PyError Building) :=
  let bytes := toBytes data
  [(filename.mapM fun filename => trimFilename filename 255).map fun filename self => { self with
      parts := self.parts ++ [{
        filename, contentType, contentId := none, contentDisposition := none, data := none, dataSha256 := none }] },
    .ok (Building.amend fun part => { part with contentId := contentId.map (List.take 255) }),
    .ok (Building.amend fun part => { part with contentDisposition := some contentDisposition }),
    .ok (Building.amend fun part => { part with data := some bytes, dataSha256 := some (lib.sha256 bytes) }),
    (store save lib bytes).map fun saved self => { self with blockstore := saved self.blockstore }]

def parseMimepart (mimepart : MimePart) : List (Assignment PyError Building) :=
  let disposition := mimepart.contentDisposition
  let contentType := mimepart.contentType
  let attach := fun (disposition : Unicode) =>
    saveAttachment save lib mimepart.body disposition contentType mimepart.filename mimepart.contentId
  if disposition ∉ [none, some "inline".toList, some "attachment".toList] then
    [.ok fun self => { self with msg := markError lib self.msg }]
  else if disposition = some "attachment".toList then attach "attachment".toList
  else if disposition = some "inline".toList ∧
      ¬ (mimepart.isText ∧ mimepart.filename = none ∧ mimepart.contentId = none) then
    attach "inline".toList
  else if mimepart.isText then
    match mimepart.body with
    | none => []
    | some data =>
      match data.encode with
      | .error e => [.error e]
      | .ok text =>
        let normalized := normalizeNewlines text
        if contentType = "text/html".toList then
          [.ok fun self => { self with htmlParts := self.htmlParts ++ [normalized] }]
        else if contentType = "text/plain".toList then
          [.ok fun self => { self with plainParts := self.plainParts ++ [normalized] }]
        else attach "attachment".toList
  else attach "attachment".toList

/-- What the `try` block makes of a leaf, and what it raises. -/
def readLeaf (leaf : Except PyError MimePart) (self : Building) : Building × Option PyError :=
  match leaf with
  | .error e => (self, some e)
  | .ok mimepart =>
    if mimepart.isMultipart then (self, none) else assign (parseMimepart save lib mimepart) self

def walkPart (self : Building) (leaf : Except PyError MimePart) : Except PyError Building :=
  match readLeaf save lib leaf self with
  | (self, none) => .ok self
  | (self, some e) => if e.inMimepart then .ok { self with msg := markError lib self.msg } else .error e

def createFromSynced (receivedDate : Option Int) (bodyString : Bytes) (blockstore : Blockstore) :
    Except PyError Building := do
  let dataSha256 := lib.sha256 bodyString
  let saved ← store save lib bodyString
  let (msg, parsed) ← readMetadata lib receivedDate bodyString (.new dataSha256)
  let self := { msg, parts := [], blockstore := saved blockstore, htmlParts := [], plainParts := [] }
  match parsed with
  | none => return self
  | some parsed =>
    let self ← parsed.walk.foldlM (walkPart save lib) self
    let msg ← calculateBody lib ⟨self.msg, self.htmlParts, self.plainParts⟩
    return { self with msg := recipientFields.foldl (emptyIfTooLong lib) msg }

end Reading

/-! ## Where a leaf is filed -/

/-- What becomes of one leaf. -/
inductive Account
  | attachment (row : Attachment)
  | html (text : Unicode)
  | plain (text : Unicode)
  | nothing

namespace Account

def row? : Account → Option Attachment
  | .attachment row => some row
  | _ => none

def html? : Account → Option Unicode
  | .html text => some text
  | _ => none

def plain? : Account → Option Unicode
  | .plain text => some text
  | _ => none

end Account

/-- Text without a name is an attachment in its own right only where its disposition says so. -/
def savedDisposition (mimepart : MimePart) : Unicode :=
  if mimepart.contentDisposition = some "inline".toList ∧
      ¬ (mimepart.isText ∧ mimepart.filename = none ∧ mimepart.contentId = none) then "inline".toList
  else "attachment".toList

/-- The row that `_save_attachment` comes to. -/
def savedRow (lib : Library) (data : Option Data) (contentDisposition contentType : Unicode)
    (filename contentId : Option Unicode) : Attachment where
  filename := filename.bind fun filename => (trimFilename filename 255).toOption
  contentType
  contentId := contentId.map (List.take 255)
  contentDisposition := some contentDisposition
  data := some (toBytes data)
  dataSha256 := some (lib.sha256 (toBytes data))

def attachmentOf (lib : Library) (mimepart : MimePart) : Attachment :=
  savedRow lib mimepart.body (savedDisposition mimepart) mimepart.contentType mimepart.filename
    mimepart.contentId

def account (lib : Library) : Except PyError MimePart → Account
  | .error _ => .nothing
  | .ok mimepart =>
    match mimepart.use with
    | .attached => .attachment (attachmentOf lib mimepart)
    | .html text => .html text
    | .plain text => .plain text
    | .skipped | .unknown | .undecodable => .nothing

/-- The leaf ends up in one place, with all that it holds. -/
def Accounted (lib : Library) (mimepart : MimePart) (data : Data) : Prop :=
  (∃ row, account lib (.ok mimepart) = .attachment row ∧ row.data = some (toBytes data)) ∨
    ∃ text, data.encode = .ok text ∧
      (account lib (.ok mimepart) = .html (normalizeNewlines text) ∨
        account lib (.ok mimepart) = .plain (normalizeNewlines text))

section Leaf
variable {save : Bytes → Option PyError} {lib : Library} {mimepart : MimePart} {self after : Building}

/-- The branches of `_parse_mimepart` by what the leaf is used for. -/
theorem parseMimepart_eq (single : mimepart.isMultipart = false) :
    parseMimepart save lib mimepart =
      match mimepart.use with
      | .skipped => []
      | .unknown => [.ok fun self => { self with msg := markError lib self.msg }]
      | .undecodable => [.error .unicodeDecodeError]
      | .attached => saveAttachment save lib mimepart.body (savedDisposition mimepart) mimepart.contentType
          mimepart.filename mimepart.contentId
      | .html text => [.ok fun self => { self with htmlParts := self.htmlParts ++ [text] }]
      | .plain text => [.ok fun self => { self with plainParts := self.plainParts ++ [text] }] := by
  have use : mimepart.use = _ := MimePart.use.eq_1 mimepart
  rw [single, if_neg Bool.false_ne_true] at use
  unfold parseMimepart
  dsimp only
  split
  case isTrue unknown =>
    rw [if_pos unknown] at use
    rw [use]
  case isFalse known =>
    rw [if_neg known] at use
    split
    case isTrue attachment =>
      rw [if_pos (.inl attachment)] at use
      have other : ¬ (mimepart.contentDisposition = some "inline".toList ∧
          ¬ (mimepart.isText ∧ mimepart.filename = none ∧ mimepart.contentId = none)) := by
        rw [attachment]
        exact fun inline => absurd inline.1 (by decide)
      rw [use, savedDisposition, if_neg other]
    case isFalse other =>
      split
      case isTrue inline =>
        rw [if_pos (.inr inline)] at use
        rw [use, savedDisposition, if_pos inline]
      case isFalse plain =>
        have disposition : savedDisposition mimepart = "attachment".toList := if_neg plain
        rw [if_neg (not_or.mpr ⟨other, plain⟩)] at use
        split
        case isFalse binary =>
          rw [if_neg binary] at use
          rw [use, disposition]
        case isTrue text =>
          rw [if_pos text, MimePart.textUse] at use
          cases body : mimepart.body with
          | none =>
            rw [body, Option.map_none] at use
            rw [use]
          | some data =>
            rw [body, Option.map_some] at use
            dsimp only
            cases encoded : data.encode with
            | error e =>
              rw [encoded] at use
              rw [use, data.encode_error encoded]
            | ok text =>
              rw [encoded] at use
              dsimp only at use ⊢
              split at use
              case isTrue html => rw [use, if_pos html]
              case isFalse not_html =>
                rw [if_neg not_html]
                split at use
                case isTrue plain => rw [use, if_pos plain]
                case isFalse not_plain => rw [use, if_neg not_plain, disposition]

/-- Without an error of the store, the row is complete; with one, it hangs on the message all the same. -/
theorem assign_saveAttachment (data : Option Data) (contentDisposition contentType : Unicode)
    (filename contentId : Option Unicode) :
    assign (saveAttachment save lib data contentDisposition contentType filename contentId) self =
      let row := savedRow lib data contentDisposition contentType filename contentId
      match store save lib (toBytes data) with
      | .error e => ({ self with parts := self.parts ++ [row] }, some e)
      | .ok saved => ({ self with parts := self.parts ++ [row], blockstore := saved self.blockstore }, none) := by
  have trimmed : filename.mapM (fun filename => trimFilename filename 255) =
      .ok (filename.bind fun filename => (trimFilename filename 255).toOption) := by
    cases filename with
    | none => rfl
    | some filename =>
      obtain ⟨name, trimmed⟩ := trimFilename_ok filename (show 1 < 255 by decide)
      rw [Option.mapM_some, Option.bind_some, trimmed]
      rfl
  unfold saveAttachment
  simp only [trimmed, Except.map, assign, Building.amend, List.modifyLast_concat]
  cases store save lib (toBytes data) <;> rfl

theorem store_ok (stored : store save lib data = .ok saved) : saved = saveToBlockstore (lib.sha256 data) data := by
  unfold store at stored
  split at stored <;> cases stored
  rfl

theorem store_error (stored : store save lib data = .error e) : save data = some e := by
  unfold store at stored
  split at stored
  case h_1 failed =>
    cases stored
    split at failed
    · cases failed
    · exact failed
  case h_2 => cases stored

/-- Every attachment has its data in the store. -/
def Stored (lib : Library) (self : Building) : Prop :=
  ∀ row ∈ self.parts, ∀ data, row.data = some data → data ≠ [] → (lib.sha256 data, data) ∈ self.blockstore

/-- The leaf is marked as an error of the message. -/
def Marked : Except PyError MimePart → Prop
  | .error _ => True
  | .ok mimepart => mimepart.use = .unknown ∨ mimepart.use = .undecodable

/-- The message after one leaf, which is in the place that it is accounted for. -/
structure Files (lib : Library) (before : Building) (leaf : Except PyError MimePart) (after : Building) :
    Prop where
  parts : after.parts = before.parts ++ (account lib leaf).row?.toList
  html : after.htmlParts = before.htmlParts ++ (account lib leaf).html?.toList
  plain : after.plainParts = before.plainParts ++ (account lib leaf).plain?.toList
  stored : Stored lib before → Stored lib after
  marked : Marked leaf → after.msg = markError lib before.msg
  unmarked : ¬ Marked leaf → after.msg = before.msg

theorem Files.of_marked {leaf : Except PyError MimePart} (nothing : account lib leaf = .nothing)
    (marked : Marked leaf) : Files lib self leaf { self with msg := markError lib self.msg } where
  parts := by simp [nothing, Account.row?]
  html := by simp [nothing, Account.html?]
  plain := by simp [nothing, Account.plain?]
  stored kept := kept
  marked _ := rfl
  unmarked unmarked := absurd marked unmarked

theorem Files.of_nothing {leaf : Except PyError MimePart} (nothing : account lib leaf = .nothing)
    (unmarked : ¬ Marked leaf) : Files lib self leaf self where
  parts := by simp [nothing, Account.row?]
  html := by simp [nothing, Account.html?]
  plain := by simp [nothing, Account.plain?]
  stored kept := kept
  marked marked := absurd marked unmarked
  unmarked _ := rfl

theorem Files.attachment (use : mimepart.use = .attached)
    (stored : store save lib (toBytes mimepart.body) = .ok saved) :
    Files lib self (.ok mimepart) { self with
      parts := self.parts ++ [attachmentOf lib mimepart], blockstore := saved self.blockstore } where
  parts := by simp [account, use, Account.row?]
  html := by simp [account, use, Account.html?]
  plain := by simp [account, use, Account.plain?]
  stored := by
    intro kept row member data filled some
    rw [store_ok stored]
    rcases List.mem_append.mp member with before | here
    · rw [saveToBlockstore]
      split
      · exact kept row before data filled some
      · exact List.mem_cons_of_mem _ (kept row before data filled some)
    · rw [List.mem_singleton.mp here] at filled
      obtain rfl : toBytes mimepart.body = data := Option.some.inj filled
      exact mem_saveToBlockstore _ some _
  marked marked := by simp [Marked, use] at marked
  unmarked _ := rfl

theorem walkPart_files {leaf : Except PyError MimePart} (uncaught : ∀ data e, save data = some e → ¬ e.inMimepart)
    (walked : walkPart save lib self leaf = .ok after) : Files lib self leaf after := by
  unfold walkPart readLeaf at walked
  cases leaf with
  | error e =>
    dsimp only at walked
    split at walked <;> cases walked
    exact .of_marked rfl trivial
  | ok mimepart =>
    dsimp only at walked
    cases single : mimepart.isMultipart with
    | true =>
      rw [single, if_pos rfl] at walked
      cases walked
      have use : mimepart.use = .skipped := by rw [MimePart.use, if_pos single]
      exact .of_nothing (by simp only [account, use]) (by simp [Marked, use])
    | false =>
      rw [single, if_neg Bool.false_ne_true, parseMimepart_eq single] at walked
      cases use : mimepart.use with
      | skipped =>
        rw [use] at walked
        cases walked
        exact .of_nothing (by simp only [account, use]) (by simp [Marked, use])
      | unknown | undecodable =>
        rw [use] at walked
        cases walked
        exact .of_marked (by simp only [account, use]) (by simp [Marked, use])
      | attached =>
        rw [use] at walked
        dsimp only at walked
        rw [assign_saveAttachment] at walked
        cases stored : store save lib (toBytes mimepart.body) with
        | error e =>
          rw [stored] at walked
          dsimp only at walked
          rw [if_neg (uncaught _ e (store_error stored))] at walked
          cases walked
        | ok saved =>
          rw [stored] at walked
          cases walked
          exact .attachment use stored
      | html text | plain text =>
        rw [use] at walked
        cases walked
        exact {
          parts := by simp [account, use, Account.row?]
          html := by simp [account, use, Account.html?]
          plain := by simp [account, use, Account.plain?]
          stored := fun kept => kept
          marked := fun marked => by simp [Marked, use] at marked
          unmarked := fun _ => rfl }

/-- A leaf that a caught error ends is filed nowhere. -/
theorem account_of_caught {leaf : Except PyError MimePart}
    (uncaught : ∀ data e, save data = some e → ¬ e.inMimepart)
    (raised : (readLeaf save lib leaf self).2 = some e) (caught : e.inMimepart) : account lib leaf = .nothing := by
  cases leaf with
  | error => rfl
  | ok mimepart =>
    unfold readLeaf at raised
    dsimp only at raised
    cases single : mimepart.isMultipart with
    | true =>
      rw [single, if_pos rfl] at raised
      cases raised
    | false =>
      rw [single, if_neg Bool.false_ne_true, parseMimepart_eq single] at raised
      cases use : mimepart.use with
      | skipped | unknown | undecodable => simp only [account, use]
      | html | plain =>
        rw [use] at raised
        cases raised
      | attached =>
        rw [use] at raised
        dsimp only at raised
        rw [assign_saveAttachment] at raised
        cases stored : store save lib (toBytes mimepart.body) with
        | ok =>
          rw [stored] at raised
          cases raised
        | error =>
          rw [stored] at raised
          cases raised
          exact absurd caught (uncaught _ _ (store_error stored))

theorem use_cases (single : mimepart.isMultipart = false) :
    mimepart.use = .unknown ∨ mimepart.use = .attached ∨ mimepart.use = mimepart.textUse := by
  unfold MimePart.use
  rw [single, if_neg Bool.false_ne_true]
  split
  · exact .inl rfl
  · split
    · exact .inr (.inl rfl)
    · split
      · exact .inr (.inr rfl)
      · exact .inr (.inl rfl)

theorem accounted_attached (use : mimepart.use = .attached) (body : mimepart.body = some data) :
    Accounted lib mimepart data := by
  refine .inl ⟨attachmentOf lib mimepart, by simp only [account, use], ?_⟩
  rw [← body]
  rfl

/-- A leaf that is read without an error is in one place with all of its data. -/
theorem accounted (single : mimepart.isMultipart = false) (known : mimepart.use ≠ .unknown)
    (decodable : mimepart.use ≠ .undecodable) (body : mimepart.body = some data) :
    Accounted lib mimepart data := by
  obtain use | use | use := use_cases single
  · exact absurd use known
  · exact accounted_attached use body
  · rw [MimePart.textUse, body, Option.map_some] at use
    cases encoded : data.encode with
    | error e =>
      rw [encoded] at use
      exact absurd use decodable
    | ok text =>
      rw [encoded] at use
      dsimp only at use
      split at use
      · exact .inr ⟨text, encoded, .inl (by simp only [account, use])⟩
      · split at use
        · exact .inr ⟨text, encoded, .inr (by simp only [account, use])⟩
        · exact accounted_attached use body

end Leaf

/-! ## All leaves -/

section Walk
variable {save : Bytes → Option PyError} {lib : Library} {self after : Building}

/-- The message after its leaves, each of which is in the place that it is accounted for. -/
structure FilesAll (lib : Library) (before : Building) (leaves : List (Except PyError MimePart))
    (after : Building) : Prop where
  parts : after.parts = before.parts ++ leaves.filterMap fun leaf => (account lib leaf).row?
  html : after.htmlParts = before.htmlParts ++ leaves.filterMap fun leaf => (account lib leaf).html?
  plain : after.plainParts = before.plainParts ++ leaves.filterMap fun leaf => (account lib leaf).plain?
  stored : Stored lib before → Stored lib after
  unmarked : after.msg.decodeError = false → before.msg.decodeError = false ∧ ∀ leaf ∈ leaves, ¬ Marked leaf

theorem append_filterMap {A B : Type} (f : A → Option B) (found : List B) (first : A) (rest : List A) :
    found ++ (f first).toList ++ rest.filterMap f = found ++ (first :: rest).filterMap f := by
  cases here : f first <;> simp [here]

theorem walk_files {leaves : List (Except PyError MimePart)}
    (uncaught : ∀ data e, save data = some e → ¬ e.inMimepart)
    (walked : leaves.foldlM (walkPart save lib) self = .ok after) : FilesAll lib self leaves after := by
  induction leaves generalizing self with
  | nil =>
    cases walked
    exact ⟨by simp, by simp, by simp, fun stored => stored, fun unmarked => ⟨unmarked, by simp⟩⟩
  | cons leaf leaves ih =>
    rw [List.foldlM_cons] at walked
    obtain ⟨next, first, rest⟩ := bind_ok walked
    have files := walkPart_files uncaught first
    have later := ih rest
    refine {
      parts := by rw [later.parts, files.parts, append_filterMap fun leaf => (account lib leaf).row?]
      html := by rw [later.html, files.html, append_filterMap fun leaf => (account lib leaf).html?]
      plain := by rw [later.plain, files.plain, append_filterMap fun leaf => (account lib leaf).plain?]
      stored := fun stored => later.stored (files.stored stored)
      unmarked := fun unmarked => ?_ }
    obtain ⟨next_unmarked, leaves_unmarked⟩ := later.unmarked unmarked
    have leaf_unmarked : ¬ Marked leaf := by
      intro marked
      rw [files.marked marked] at next_unmarked
      cases next_unmarked
    rw [files.unmarked leaf_unmarked] at next_unmarked
    exact ⟨next_unmarked, List.forall_mem_cons.mpr ⟨leaf_unmarked, leaves_unmarked⟩⟩

/-! ## The body -/

/-- The body that is stored for these texts. -/
def chosenBody (lib : Library) (htmlParts plainParts : List Unicode) : Except PyError Unicode :=
  let htmlBody := strip htmlParts.flatten
  let plainBody := strip (['\n'].intercalate plainParts)
  if htmlBody ≠ [] then .ok htmlBody
  else if plainBody ≠ [] then lib.plaintext2html plainBody
  else .ok []

theorem calculateBody_body {parsing : Parsing} (calculated : calculateBody lib parsing = .ok msg) :
    (∃ body, chosenBody lib parsing.htmlParts parsing.plainParts = .ok body ∧ msg.body = some body) ∧
      msg.decodeError = parsing.msg.decodeError := by
  unfold calculateBody at calculated
  unfold chosenBody
  dsimp only at calculated ⊢
  split at calculated
  case isTrue html =>
    obtain ⟨text, _, made⟩ := bind_ok calculated
    cases made
    exact ⟨⟨_, if_pos html, rfl⟩, rfl⟩
  case isFalse blank =>
    rw [if_neg blank]
    split at calculated
    case isTrue plain =>
      obtain ⟨body, converted, made⟩ := bind_ok calculated
      cases made
      exact ⟨⟨body, by rw [if_pos plain, converted], rfl⟩, rfl⟩
    case isFalse blank =>
      cases calculated
      exact ⟨⟨[], if_neg blank, rfl⟩, rfl⟩

/-- Emptying a field leaves a body that has been chosen. -/
theorem recipients_body (msg : SyncedMessage) (body : Unicode) (chosen : msg.body = some body) :
    (recipientFields.foldl (emptyIfTooLong lib) msg).body = some body := by
  refine List.foldlRecOn recipientFields (emptyIfTooLong lib) (motive := fun msg => msg.body = some body) chosen ?_
  intro current kept field member
  have emptied : (field.empty current).body = current.body := by
    simp only [recipientFields, List.mem_cons, List.not_mem_nil, or_false] at member
    rcases member with rfl | rfl | rfl | rfl | rfl <;> rfl
  unfold emptyIfTooLong
  split
  · simp only [markError, emptied, kept]
    rfl
  · exact kept

/-- The message that the function returns for leaves whose metadata could be parsed. -/
structure Filed (save : Bytes → Option PyError) (lib : Library) (leaves : List (Except PyError MimePart))
    (built : Building) : Prop where
  parts : built.parts = leaves.filterMap fun leaf => (account lib leaf).row?
  html : built.htmlParts = leaves.filterMap fun leaf => (account lib leaf).html?
  plain : built.plainParts = leaves.filterMap fun leaf => (account lib leaf).plain?
  stored : Stored lib built
  body : ∃ body, chosenBody lib built.htmlParts built.plainParts = .ok body ∧ built.msg.body = some body
  unmarked : built.msg.decodeError = false → ∀ leaf ∈ leaves, ∃ mimepart, leaf = .ok mimepart ∧
    ∀ data, mimepart.isMultipart = false → mimepart.body = some data → Accounted lib mimepart data
  caught : ∀ before leaf after self e, leaves = before ++ leaf :: after →
    (readLeaf save lib leaf self).2 = some e → e.inMimepart →
      built.parts = (before ++ after).filterMap (fun leaf => (account lib leaf).row?) ∧
        built.htmlParts = (before ++ after).filterMap (fun leaf => (account lib leaf).html?) ∧
        built.plainParts = (before ++ after).filterMap fun leaf => (account lib leaf).plain?

theorem filed {leaves : List (Except PyError MimePart)}
    (uncaught : ∀ data e, save data = some e → ¬ e.inMimepart) (empty : self.parts = [])
    (no_html : self.htmlParts = []) (no_plain : self.plainParts = [])
    (walked : leaves.foldlM (walkPart save lib) self = .ok after)
    (calculated : calculateBody lib ⟨after.msg, after.htmlParts, after.plainParts⟩ = .ok msg) :
    Filed save lib leaves { after with msg := recipientFields.foldl (emptyIfTooLong lib) msg } := by
  have files := walk_files uncaught walked
  obtain ⟨⟨body, chosen, given⟩, marked⟩ := calculateBody_body calculated
  have parts := files.parts
  have html := files.html
  have plain := files.plain
  rw [empty, List.nil_append] at parts
  rw [no_html, List.nil_append] at html
  rw [no_plain, List.nil_append] at plain
  refine {
    parts, html, plain
    stored := files.stored fun row member => by rw [empty] at member; cases member
    body := ⟨body, chosen, recipients_body msg body given⟩
    unmarked := fun unmarked leaf member => ?_
    caught := fun before leaf later self e split raised caught => ?_ }
  · have before_recipients : after.msg.decodeError = false := by
      rw [← marked]
      exact Bool.eq_false_iff.mpr fun failed =>
        Bool.eq_false_iff.mp unmarked ((recipients_carry lib msg).decodeError failed)
    have unmarked := (files.unmarked before_recipients).2 leaf member
    cases leaf with
    | error => exact absurd trivial unmarked
    | ok mimepart =>
      obtain ⟨known, decodable⟩ := not_or.mp unmarked
      exact ⟨mimepart, rfl, fun data single body => accounted single known decodable body⟩
  · have nothing := account_of_caught uncaught raised caught
    subst split
    simp only [List.filterMap_append, List.filterMap_cons, nothing, Account.row?, Account.html?,
      Account.plain?] at parts html plain ⊢
    exact ⟨parts, html, plain⟩

end Walk

/-- Without a parsed message, the error is marked. -/
theorem readMetadata_none {lib : Library} {blank msg : SyncedMessage}
    (read : readMetadata lib receivedDate bodyString blank = .ok (msg, none)) : msg.decodeError = true := by
  have handled {before : SyncedMessage} (e : PyError)
      (caught : readMetadata.handle lib e before = .ok (msg, none)) : msg.decodeError = true := by
    unfold readMetadata.handle at caught
    split at caught <;> cases caught
    rfl
  unfold readMetadata at read
  split at read
  · exact handled _ read
  · split at read
    · cases read
    · exact handled _ read

/-- Every leaf of a message without a decode error is in one place with all of its data, and the body is
the HTML or else the converted plain text, without the white space around it. A leaf that a caught error
ends is as good as absent. -/
theorem leaves_are_filed (save : Bytes → Option PyError) (lib : Library) (receivedDate : Option Int)
    (bodyString : Bytes) (blockstore : Blockstore) (built : Building)
    (uncaught : ∀ data e, save data = some e → ¬ e.inMimepart)
    (created : createFromSynced save lib receivedDate bodyString blockstore = .ok built) :
    ∃ msg parsed, readMetadata lib receivedDate bodyString (.new (lib.sha256 bodyString)) = .ok (msg, parsed) ∧
      match parsed with
      | none => built.msg.decodeError = true ∧ built.parts = []
      | some parsed => Filed save lib parsed.walk built := by
  unfold createFromSynced at created
  obtain ⟨saved, _, created⟩ := bind_ok created
  obtain ⟨⟨msg, parsed⟩, read, created⟩ := bind_ok created
  refine ⟨msg, parsed, read, ?_⟩
  cases parsed with
  | none =>
    cases created
    exact ⟨readMetadata_none read, rfl⟩
  | some parsed =>
    obtain ⟨after, walked, created⟩ := bind_ok created
    obtain ⟨msg, calculated, created⟩ := bind_ok created
    cases created
    exact filed uncaught rfl rfl rfl walked calculated

/-! ## The columns

Apart from its rows, the message is the one of `Synced.createFromSynced`. -/
section Columns
variable {save : Bytes → Option PyError} {lib : Library} {self after : Building} {parsing : Parsing}

def withoutParts (msg : SyncedMessage) : SyncedMessage := { msg with parts := [] }

structure Agrees (built : Building) (parsing : Parsing) : Prop where
  msg : built.msg = withoutParts parsing.msg
  html : built.htmlParts = parsing.htmlParts
  plain : built.plainParts = parsing.plainParts

theorem Files.agrees {leaf : Except PyError MimePart} {next : Parsing} (files : Files lib self leaf after)
    (agrees : Agrees self parsing) (walked : Walked lib parsing leaf next) : Agrees after next := by
  obtain ⟨msg, html, plain⟩ := agrees
  cases walked with
  | skipped use | attached use | html use | plain use =>
    have unmarked := files.unmarked (by simp [Marked, use])
    constructor
    · exact unmarked.trans msg
    · rw [files.html, html]
      simp [account, use, Account.html?]
    · rw [files.plain, plain]
      simp [account, use, Account.plain?]
  | unknown use | undecodable use =>
    have marked := files.marked (by simp [Marked, use])
    constructor
    · rw [marked, msg]
      rfl
    · rw [files.html, html]
      simp [account, use, Account.html?]
    · rw [files.plain, plain]
      simp [account, use, Account.plain?]
  | unreadable =>
    have marked := files.marked trivial
    constructor
    · rw [marked, msg]
      rfl
    · rw [files.html, html]
      exact List.append_nil _
    · rw [files.plain, plain]
      exact List.append_nil _

theorem walk_agrees {leaves : List (Except PyError MimePart)}
    (uncaught : ∀ data e, save data = some e → ¬ e.inMimepart) (agrees : Agrees self parsing)
    (walked : leaves.foldlM (walkPart save lib) self = .ok after) :
    ∃ next, leaves.foldlM (Synced.walkPart lib) parsing = .ok next ∧ Agrees after next := by
  induction leaves generalizing self parsing with
  | nil =>
    cases walked
    exact ⟨parsing, rfl, agrees⟩
  | cons leaf leaves ih =>
    rw [List.foldlM_cons] at walked
    obtain ⟨between, first, rest⟩ := bind_ok walked
    have files := walkPart_files uncaught first
    have step : ∃ next, Synced.walkPart lib parsing leaf = .ok next ∧ Walked lib parsing leaf next := by
      cases leaf with
      | ok mimepart => exact Synced.walkPart_ok lib parsing mimepart
      | error e =>
        unfold walkPart readLeaf at first
        dsimp only at first
        split at first
        case isTrue caught =>
          exact ⟨_, by simp only [Synced.walkPart, Except.bind, caught, if_true], .unreadable caught⟩
        case isFalse => cases first
    obtain ⟨next, ran, coarse⟩ := step
    obtain ⟨last, later, last_agrees⟩ := ih (files.agrees agrees coarse) rest
    exact ⟨last, by rw [List.foldlM_cons, ran]; exact later, last_agrees⟩

theorem calculateBody_withoutParts (agrees : Agrees self parsing) :
    calculateBody lib ⟨self.msg, self.htmlParts, self.plainParts⟩ =
      (calculateBody lib parsing).map withoutParts := by
  rw [agrees.msg, agrees.html, agrees.plain]
  unfold calculateBody
  dsimp only
  split
  · cases lib.stripTags (strip parsing.htmlParts.flatten) <;> rfl
  · split
    · cases lib.plaintext2html (strip (['\n'].intercalate parsing.plainParts)) <;> rfl
    · rfl

theorem recipients_withoutParts (msg : SyncedMessage) :
    recipientFields.foldl (emptyIfTooLong lib) (withoutParts msg) =
      withoutParts (recipientFields.foldl (emptyIfTooLong lib) msg) := by
  have each (msg : SyncedMessage) (field : RecipientField) (member : field ∈ recipientFields) :
      emptyIfTooLong lib (withoutParts msg) field = withoutParts (emptyIfTooLong lib msg field) := by
    have same : field.length (withoutParts msg) = field.length msg ∧
        field.empty (withoutParts msg) = withoutParts (field.empty msg) := by
      simp only [recipientFields, List.mem_cons, List.not_mem_nil, or_false] at member
      rcases member with rfl | rfl | rfl | rfl | rfl <;> exact ⟨rfl, rfl⟩
    unfold emptyIfTooLong
    rw [same.1, same.2]
    split <;> rfl
  generalize recipientFields = fields at each
  induction fields generalizing msg with
  | nil => rfl
  | cons field fields ih =>
    rw [List.foldl_cons, List.foldl_cons, each msg field List.mem_cons_self]
    exact ih _ fun msg other member => each msg other (List.mem_cons_of_mem _ member)

theorem readMetadata_parts {blank : SyncedMessage} (empty : blank.parts = [])
    (read : readMetadata lib receivedDate bodyString blank = .ok (msg, parsed)) : withoutParts msg = msg := by
  have handled {before : SyncedMessage} (e : PyError) (none_yet : before.parts = [])
      (caught : readMetadata.handle lib e before = .ok (msg, parsed)) : withoutParts msg = msg := by
    unfold readMetadata.handle at caught
    split at caught <;> cases caught
    rw [withoutParts, ← none_yet, markError]
  have assigned (parsed : Parsed) :
      (assign (parseMetadata lib parsed bodyString receivedDate) blank).1.parts = [] := by
    apply assign_keeps fun msg : SyncedMessage => msg.parts = []
    · intro assignment member
      simp only [parseMetadata, List.mem_cons, List.not_mem_nil, or_false] at member
      rcases member with rfl | rfl | rfl | rfl | rfl | rfl | rfl | rfl | rfl | rfl | rfl | rfl | rfl | rfl
      all_goals first
        | exact keeps_ok fun _ kept => kept
        | exact keeps_map fun _ _ _ kept => kept
    · exact empty
  unfold readMetadata at read
  split at read
  · exact handled _ empty read
  next parsed _ =>
    have kept := assigned parsed
    split at read
    next ran =>
      cases read
      rw [ran] at kept
      rw [withoutParts, ← kept]
    next ran =>
      rw [ran] at kept
      exact handled _ kept read

/-- With a store whose errors are not caught, the columns are those of the message without rows. -/
theorem createFromSynced_columns (uncaught : ∀ data e, save data = some e → ¬ e.inMimepart)
    (created : createFromSynced save lib receivedDate bodyString blockstore = .ok after) :
    ∃ msg saved, Synced.createFromSynced lib receivedDate bodyString blockstore = .ok (msg, saved) ∧
      after.msg = withoutParts msg := by
  unfold createFromSynced at created
  obtain ⟨saved, _, created⟩ := bind_ok created
  obtain ⟨⟨msg, parsed⟩, read, created⟩ := bind_ok created
  have fresh := readMetadata_parts rfl read
  unfold Synced.createFromSynced
  dsimp only
  rw [read]
  cases parsed with
  | none =>
    cases created
    exact ⟨msg, _, rfl, fresh.symm⟩
  | some parsed =>
    obtain ⟨last, walked, created⟩ := bind_ok created
    obtain ⟨body, calculated, created⟩ := bind_ok created
    cases created
    have start : Agrees ⟨msg, [], saved blockstore, [], []⟩ ⟨msg, [], []⟩ := ⟨fresh.symm, rfl, rfl⟩
    obtain ⟨parsing, ran, agrees⟩ := walk_agrees uncaught start walked
    rw [calculateBody_withoutParts agrees] at calculated
    cases coarse : calculateBody lib parsing with
    | error =>
      rw [coarse] at calculated
      cases calculated
    | ok whole =>
      rw [coarse] at calculated
      cases calculated
      have body : readBody lib parsed msg = .ok (recipientFields.foldl (emptyIfTooLong lib) whole) := by
        unfold readBody
        rw [ran]
        change (calculateBody lib parsing >>= _) = _
        rw [coarse]
        rfl
      refine ⟨recipientFields.foldl (emptyIfTooLong lib) whole,
        saveToBlockstore (lib.sha256 bodyString) bodyString blockstore, ?_, recipients_withoutParts whole⟩
      change (readBody lib parsed msg >>= _) = _
      rw [body]
      rfl

end Columns

section Sample

def htmlLeaf (text : Unicode) : MimePart where
  isMultipart := false
  contentDisposition := none
  contentId := none
  contentType := "text/html".toList
  detectedFileName := none
  body := some (.unicode text)

/-- An image without a disposition. -/
def imageLeaf : MimePart where
  isMultipart := false
  contentDisposition := none
  contentId := none
  contentType := "image/png".toList
  detectedFileName := some "x.png".toList
  body := some (.bytes [137, 80])

def sampleMail : Library := plainMail (fun _ => none) [.ok (htmlLeaf "\n<p>x</p>".toList), .ok imageLeaf]

/-- What the function makes of it. -/
def sampleBuilding : Building where
  msg := { SyncedMessage.new "3e6a" with
    subject := some "Hello".toList
    fromAddr := some []
    senderAddr := some []
    replyTo := some []
    toAddr := some []
    ccAddr := some []
    bccAddr := some []
    receivedDate := some 0
    references := some []
    size := some 1
    body := some "<p>x</p>".toList
    snippet := some "<p>x</p>".toList }
  parts := [{
    filename := some "x.png".toList
    contentType := "image/png".toList
    contentId := none
    contentDisposition := some "attachment".toList
    data := some [137, 80]
    dataSha256 := some "3e6a" }]
  blockstore := [("3e6a", [137, 80]), ("3e6a", [72])]
  htmlParts := ["\n<p>x</p>".toList]
  plainParts := []

theorem sample_filed : ∃ msg parsed,
    readMetadata sampleMail (some 0) [72] (.new (sampleMail.sha256 [72])) = .ok (msg, parsed) ∧
      match parsed with
      | none => sampleBuilding.msg.decodeError = true ∧ sampleBuilding.parts = []
      | some parsed => Filed (fun _ => none) sampleMail parsed.walk sampleBuilding :=
  leaves_are_filed (fun _ => none) sampleMail (some 0) [72] [] sampleBuilding nofun rfl

/-- The text of the first leaf is not in the body: the line break before it is gone. -/
theorem leading_newline_is_cut :
    createFromSynced (fun _ => none) sampleMail (some 0) [72] [] = .ok sampleBuilding ∧
      sampleBuilding.msg.decodeError = false ∧
      sampleBuilding.msg.body = some "<p>x</p>".toList ∧
      ¬ normalizeNewlines "\n<p>x</p>".toList <:+: "<p>x</p>".toList :=
  ⟨rfl, rfl, rfl, fun inside => absurd inside.length_le (by decide)⟩

end Sample

end SyncEngine.MimeLeaves
