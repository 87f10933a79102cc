import SyncEngine.Models.ParsingErrors

/-! Which messages fit the columns that they are written to. The database is in strict mode, so a
value that is too long stops the folder at its message. -/
namespace SyncEngine
namespace Synced

/-- The content types that have a column of their own. -/
def COMMON_CONTENT_TYPES : List String :=
  ["text/plain", "text/html", "multipart/alternative", "multipart/mixed", "image/jpeg",
    "multipart/related", "application/pdf", "image/png", "image/gif", "application/octet-stream",
    "multipart/signed", "application/msword", "application/pkcs7-signature", "message/rfc822",
    "image/jpg"]

/-- `_content_type_other`, as `serialize_before_insert` sets it. -/
def contentTypeOther (contentType : Unicode) : Option Unicode :=
  if contentType ∈ COMMON_CONTENT_TYPES.map String.toList then none else some contentType

def ContentTypeFits (contentType : Unicode) : Prop :=
  ∀ other, contentTypeOther contentType = some other → other.length ≤ 255

structure Part.Fits (part : Part) : Prop extends part.Trimmed where
  contentType : ContentTypeFits part.block.contentType

/-- Every bounded column of the message and of its parts and blocks. -/
structure FitsColumns (msg : SyncedMessage) : Prop where
  subject : ∀ text, msg.subject = some text → text.length ≤ 255
  snippet : ∀ text, msg.snippet = some text → text.length ≤ 191
  messageIdHeader : ∀ text, msg.messageIdHeader = some text → text.length ≤ 998
  nylasUid : ∀ text, msg.nylasUid = some text → text.length ≤ 64
  fromAddr : ∀ found, msg.fromAddr = some found → jsonAddresses found ≤ MAX_TEXT_BYTES
  senderAddr : ∀ found, msg.senderAddr = some found → jsonAddresses found ≤ MAX_TEXT_BYTES
  replyTo : ∀ found, msg.replyTo = some found → jsonAddresses found ≤ MAX_TEXT_BYTES
  toAddr : ∀ found, msg.toAddr = some found → jsonAddresses found ≤ MAX_TEXT_BYTES
  ccAddr : ∀ found, msg.ccAddr = some found → jsonAddresses found ≤ MAX_TEXT_BYTES
  bccAddr : ∀ found, msg.bccAddr = some found → jsonAddresses found ≤ MAX_TEXT_BYTES
  inReplyTo : ∀ text, msg.inReplyTo = some text → jsonString text ≤ MAX_TEXT_BYTES
  references : ∀ found, msg.references = some found → jsonStrings found ≤ MAX_TEXT_BYTES
  parts : ∀ part ∈ msg.parts, part.Fits

/-! ## What the headers give -/

/-- The first `n` helpers raise nothing. -/
def reads (lib : Library) (receivedDate : Option Int) (parsed : Parsed) (n : Nat) : Bool :=
  ((headerErrors lib receivedDate parsed).take n).all Option.isNone

/-- What a column is given that comes after `n` helpers. -/
def given (lib : Library) (receivedDate : Option Int) (parsed : Parsed) (n : Nat)
    (found : Except PyError α) : Option α :=
  if reads lib receivedDate parsed n then found.toOption else none

/-- The columns that the headers give, up to the first helper that raises. -/
structure Given (lib : Library) (receivedDate : Option Int) (parsed : Parsed)
    (msg : SyncedMessage) : Prop where
  subject : msg.subject = sanitizeSubject parsed.subject
  snippet : msg.snippet = none
  fromAddr : msg.fromAddr =
    given lib receivedDate parsed 0 (parseMimepartAddressHeader lib parsed "From")
  senderAddr : msg.senderAddr =
    given lib receivedDate parsed 1 (parseMimepartAddressHeader lib parsed "Sender")
  replyTo : msg.replyTo =
    given lib receivedDate parsed 2 (parseMimepartAddressHeader lib parsed "Reply-To")
  toAddr : msg.toAddr =
    given lib receivedDate parsed 3 (parseMimepartAddressHeader lib parsed "To")
  ccAddr : msg.ccAddr =
    given lib receivedDate parsed 4 (parseMimepartAddressHeader lib parsed "Cc")
  bccAddr : msg.bccAddr =
    given lib receivedDate parsed 5 (parseMimepartAddressHeader lib parsed "Bcc")
  inReplyTo : msg.inReplyTo =
    if reads lib receivedDate parsed 6 then parsed.header "In-Reply-To" else none
  messageIdHeader : msg.messageIdHeader =
    if reads lib receivedDate parsed 6 then (parsed.header "Message-Id").map (List.take 998) else none
  nylasUid : msg.nylasUid =
    if reads lib receivedDate parsed 8 then parsed.header "X-INBOX-ID" else none
  references : msg.references.isSome → reads lib receivedDate parsed 9
  parts : msg.parts = []

theorem parseMetadata_given (lib : Library) (receivedDate : Option Int) (parsed : Parsed)
    (bodyString : Bytes) (dataSha256 : String) : Given lib receivedDate parsed
      (assign (parseMetadata lib parsed bodyString receivedDate) (.new dataSha256)).1 := by
  have replies := parseReferences_raised ((parsed.header "References").getD [])
    ((parsed.header "In-Reply-To").getD [])
  unfold parseMetadata
  -- One case for each helper that may be the first to raise, and one where none does.
  cases fromAddr : parseMimepartAddressHeader lib parsed "From"
  swap
  cases senderAddr : parseMimepartAddressHeader lib parsed "Sender"
  swap
  cases replyTo : parseMimepartAddressHeader lib parsed "Reply-To"
  swap
  cases toAddr : parseMimepartAddressHeader lib parsed "To"
  swap
  cases ccAddr : parseMimepartAddressHeader lib parsed "Cc"
  swap
  cases bccAddr : parseMimepartAddressHeader lib parsed "Bcc"
  swap
  cases messageId : warnMessageId lib (parsed.header "Message-Id")
  swap
  cases date : chooseReceivedDate lib parsed receivedDate
  swap
  cases references : parseReferences ((parsed.header "References").getD [])
    ((parsed.header "In-Reply-To").getD [])
  all_goals
    try rw [references] at replies
    constructor <;>
      simp [assign, given, reads, headerErrors, addressHeaders, raised, SyncedMessage.new,
        Except.map, Except.toOption, ← replies, *]

/-! ## What the body leaves of it -/

/-- The columns that only headers fill, other than the recipient fields, stay as they are. -/
structure SameHeaders (before after : SyncedMessage) : Prop where
  subject : after.subject = before.subject
  messageIdHeader : after.messageIdHeader = before.messageIdHeader
  nylasUid : after.nylasUid = before.nylasUid
  fromAddr : after.fromAddr = before.fromAddr
  senderAddr : after.senderAddr = before.senderAddr
  inReplyTo : after.inReplyTo = before.inReplyTo

theorem SameHeaders.refl (msg : SyncedMessage) : SameHeaders msg msg := ⟨rfl, rfl, rfl, rfl, rfl, rfl⟩

theorem SameHeaders.trans (first : SameHeaders a b) (second : SameHeaders b c) :
    SameHeaders a c where
  subject := second.subject.trans first.subject
  messageIdHeader := second.messageIdHeader.trans first.messageIdHeader
  nylasUid := second.nylasUid.trans first.nylasUid
  fromAddr := second.fromAddr.trans first.fromAddr
  senderAddr := second.senderAddr.trans first.senderAddr
  inReplyTo := second.inReplyTo.trans first.inReplyTo

theorem Walked.sameHeaders (walked : Walked lib self mimepart after) :
    SameHeaders self.msg after.msg := by
  cases walked <;> exact ⟨rfl, rfl, rfl, rfl, rfl, rfl⟩

/-- A part that is saved has a content type that fits. -/
def AttachmentFits : Except PyError MimePart → Prop
  | .ok mimepart => mimepart.use = .attached → ContentTypeFits mimepart.contentType
  | .error _ => True

theorem Walked.parts_fit (walked : Walked lib self mimepart after) :
    (∀ part ∈ after.msg.parts, part.Fits) ↔
      (∀ part ∈ self.msg.parts, part.Fits) ∧ AttachmentFits mimepart := by
  cases walked with
  | unreadable => simp [AttachmentFits, markError]
  | skipped use | unknown use | undecodable use | html use | plain use =>
    simp [AttachmentFits, markError, use]
  | attached use part trimmed contentType =>
    have fits : part.Fits ↔ ContentTypeFits part.block.contentType :=
      ⟨Part.Fits.contentType, fun fits => ⟨trimmed, fits⟩⟩
    simp only [List.forall_mem_append, List.mem_singleton, forall_eq, AttachmentFits, use,
      forall_const, fits, contentType]

theorem Walks.sameHeaders (walks : Walks lib self walk after) : SameHeaders self.msg after.msg := by
  induction walks with
  | nil => exact .refl _
  | cons first _ ih => exact first.sameHeaders.trans ih

theorem Walks.parts_fit (walks : Walks lib self walk after) :
    (∀ part ∈ after.msg.parts, part.Fits) ↔
      (∀ part ∈ self.msg.parts, part.Fits) ∧ ∀ mimepart ∈ walk, AttachmentFits mimepart := by
  induction walks with
  | nil => simp
  | cons first _ ih => rw [ih, first.parts_fit, List.forall_mem_cons, and_assoc]

theorem calculateBody_spec (ran : calculateBody lib self = .ok msg) :
    SameHeaders self.msg msg ∧ msg.parts = self.msg.parts ∧
      ∃ text, msg.snippet = some text ∧ text.length ≤ 191 := by
  unfold calculateBody at ran
  dsimp only at ran
  split at ran
  · cases stripped : lib.stripTags (strip self.htmlParts.flatten) with
    | error =>
      rw [stripped] at ran
      cases ran
    | ok text =>
      rw [stripped] at ran
      cases ran
      exact ⟨⟨rfl, rfl, rfl, rfl, rfl, rfl⟩, rfl, _, rfl, length_unicodeSafeTruncate_le _ _⟩
  · split at ran
    · cases converted : lib.plaintext2html (strip (['\n'].intercalate self.plainParts)) with
      | error =>
        rw [converted] at ran
        cases ran
      | ok body =>
        rw [converted] at ran
        cases ran
        exact ⟨⟨rfl, rfl, rfl, rfl, rfl, rfl⟩, rfl, _, rfl, length_unicodeSafeTruncate_le _ _⟩
    · cases ran
      exact ⟨⟨rfl, rfl, rfl, rfl, rfl, rfl⟩, rfl, _, rfl, Nat.zero_le _⟩

/-! ## Recipients -/

/-- A turn of the loop over the recipient fields lengthens none of them. -/
theorem emptyIfTooLong_length (lib : Library) (msg : SyncedMessage)
    (member : field ∈ recipientFields) (other : changed ∈ recipientFields)
    (short : field.length msg ≤ MAX_TEXT_CHARS) :
    field.length (emptyIfTooLong lib msg changed) ≤ MAX_TEXT_CHARS := by
  unfold emptyIfTooLong
  split
  · rename_i long
    have small : jsonAddresses [] ≤ MAX_TEXT_CHARS := by decide
    simp only [recipientFields, List.mem_cons, List.not_mem_nil, or_false] at member other
    rcases member with rfl | rfl | rfl | rfl | rfl <;>
      rcases other with rfl | rfl | rfl | rfl | rfl <;>
      first
        | exact short
        | exact small
  · exact short

theorem recipients_short (lib : Library) {fields : List RecipientField}
    (listed : ∀ field ∈ fields, field ∈ recipientFields) (msg : SyncedMessage) :
    (∀ field ∈ recipientFields, field.length msg ≤ MAX_TEXT_CHARS →
      field.length (fields.foldl (emptyIfTooLong lib) msg) ≤ MAX_TEXT_CHARS) ∧
    ∀ field ∈ fields, field.length (fields.foldl (emptyIfTooLong lib) msg) ≤ MAX_TEXT_CHARS := by
  induction fields generalizing msg with
  | nil => exact ⟨fun _ _ => id, fun _ member => absurd member List.not_mem_nil⟩
  | cons changed rest ih =>
    have known := listed changed List.mem_cons_self
    obtain ⟨kept, short⟩ := ih (fun field member => listed field (List.mem_cons_of_mem _ member))
      (emptyIfTooLong lib msg changed)
    refine ⟨fun field member small => kept field member ?_, fun field member => ?_⟩
    · exact emptyIfTooLong_length lib msg member known small
    · rcases List.mem_cons.mp member with rfl | later
      · apply kept field known
        by_cases long : MAX_TEXT_CHARS < field.length msg
        · rw [emptyIfTooLong, if_pos long]
          simp only [recipientFields, List.mem_cons, List.not_mem_nil, or_false] at known
          rcases known with rfl | rfl | rfl | rfl | rfl <;> exact (by decide : 2 ≤ MAX_TEXT_CHARS)
        · exact emptyIfTooLong_length lib msg known known (Nat.le_of_not_lt long)
      · exact short field later

theorem emptyIfTooLong_sameHeaders (lib : Library) (msg : SyncedMessage)
    (member : field ∈ recipientFields) :
    SameHeaders msg (emptyIfTooLong lib msg field) ∧
      (emptyIfTooLong lib msg field).parts = msg.parts ∧
      ((∃ text, msg.snippet = some text ∧ text.length ≤ 191) →
        ∃ text, (emptyIfTooLong lib msg field).snippet = some text ∧ text.length ≤ 191) := by
  unfold emptyIfTooLong
  split
  · simp only [recipientFields, List.mem_cons, List.not_mem_nil, or_false] at member
    rcases member with rfl | rfl | rfl | rfl | rfl
    all_goals
      refine ⟨⟨rfl, rfl, rfl, rfl, rfl, rfl⟩, rfl, ?_⟩
      rintro ⟨text, snippet, short⟩
      exact ⟨text, by simp only [markError, snippet]; rfl, short⟩
  · exact ⟨.refl msg, rfl, id⟩

/-- What the message keeps while its recipient fields are checked. -/
structure Checked (before after : SyncedMessage) : Prop where
  headers : SameHeaders before after
  parts : after.parts = before.parts
  snippet : ∃ text, after.snippet = some text ∧ text.length ≤ 191

theorem recipients_checked (lib : Library) (msg : SyncedMessage)
    (snippet : ∃ text, msg.snippet = some text ∧ text.length ≤ 191) :
    Checked msg (recipientFields.foldl (emptyIfTooLong lib) msg) := by
  refine List.foldlRecOn recipientFields (emptyIfTooLong lib) (motive := Checked msg)
    ⟨.refl msg, rfl, snippet⟩ fun current checked field member => ?_
  obtain ⟨headers, parts, short⟩ := emptyIfTooLong_sameHeaders lib current member
  exact ⟨checked.headers.trans headers, parts.trans checked.parts, short checked.snippet⟩

theorem short_of_json {found : Option α} {length : α → Nat}
    (short : jsonOptional length found ≤ MAX_TEXT_CHARS) :
    ∀ value, found = some value → length value ≤ MAX_TEXT_BYTES := by
  rintro value rfl
  exact short.trans (by decide)

/-- Of a message whose metadata was parsed, only what no check covers can be too long. -/
theorem readBody_fits (read : readBody lib parsed msg = .ok after) (blank : msg.parts = [])
    (subject : ∀ text, msg.subject = some text → text.length ≤ 255)
    (messageId : ∀ text, msg.messageIdHeader = some text → text.length ≤ 998) :
    FitsColumns after ↔
      (∀ text, msg.nylasUid = some text → text.length ≤ 64) ∧
      (∀ found, msg.fromAddr = some found → jsonAddresses found ≤ MAX_TEXT_BYTES) ∧
      (∀ found, msg.senderAddr = some found → jsonAddresses found ≤ MAX_TEXT_BYTES) ∧
      (∀ text, msg.inReplyTo = some text → jsonString text ≤ MAX_TEXT_BYTES) ∧
      ∀ mimepart ∈ parsed.walk, AttachmentFits mimepart := by
  unfold readBody at read
  obtain ⟨handled, reads⟩ := readBody_reads read
  obtain ⟨parsing, ran, walks⟩ := walk_ok lib ⟨msg, [], []⟩ handled
  rw [ran] at read
  simp only [bind, Except.bind] at read
  cases calculated : calculateBody lib parsing with
  | error =>
    rw [calculated] at read
    cases read
  | ok body =>
    rw [calculated] at read
    cases read
    obtain ⟨headers, parts, snippet⟩ := calculateBody_spec calculated
    have checked := recipients_checked lib body snippet
    have same := (walks.sameHeaders.trans headers).trans checked.headers
    have saved := walks.parts_fit
    rw [← parts, ← checked.parts] at saved
    have recipients := (recipients_short lib (fun _ member => member) body).2
    simp only [recipientFields, List.forall_mem_cons, List.not_mem_nil, false_implies,
      implies_true, and_true] at recipients
    obtain ⟨toAddr, ccAddr, bccAddr, references, replyTo⟩ := recipients
    constructor
    · intro fits
      refine ⟨?_, ?_, ?_, ?_, (saved.mp fits.parts).2⟩
      · exact same.nylasUid ▸ fits.nylasUid
      · exact same.fromAddr ▸ fits.fromAddr
      · exact same.senderAddr ▸ fits.senderAddr
      · exact same.inReplyTo ▸ fits.inReplyTo
    · rintro ⟨nylasUid, fromAddr, senderAddr, inReplyTo, attachments⟩
      refine {
        subject := same.subject ▸ subject
        snippet := fun text given => ?_
        messageIdHeader := same.messageIdHeader ▸ messageId
        nylasUid := same.nylasUid ▸ nylasUid
        fromAddr := same.fromAddr ▸ fromAddr
        senderAddr := same.senderAddr ▸ senderAddr
        replyTo := short_of_json replyTo
        toAddr := short_of_json toAddr
        ccAddr := short_of_json ccAddr
        bccAddr := short_of_json bccAddr
        inReplyTo := same.inReplyTo ▸ inReplyTo
        references := short_of_json references
        parts := saved.mpr ⟨by simp [blank], attachments⟩ }
      obtain ⟨held, final, short⟩ := checked.snippet
      cases final.symm.trans given
      exact short

/-! ## The message -/

/-- No header value that nothing checks is too long: `From`, `Sender`, `In-Reply-To` and
`X-INBOX-ID`, the recipient fields where a helper raised and the checks were skipped, and the
content types of attachments. A header behind a helper that raised is not stored at all. -/
structure HeadersFit (lib : Library) (receivedDate : Option Int) (parsed : Parsed) : Prop where
  fromAddr : ∀ found, given lib receivedDate parsed 0 (parseMimepartAddressHeader lib parsed "From") =
    some found → jsonAddresses found ≤ MAX_TEXT_BYTES
  senderAddr : ∀ found, given lib receivedDate parsed 1
    (parseMimepartAddressHeader lib parsed "Sender") = some found → jsonAddresses found ≤ MAX_TEXT_BYTES
  replyTo : reads lib receivedDate parsed 9 = false → ∀ found, given lib receivedDate parsed 2
    (parseMimepartAddressHeader lib parsed "Reply-To") = some found → jsonAddresses found ≤ MAX_TEXT_BYTES
  toAddr : reads lib receivedDate parsed 9 = false → ∀ found, given lib receivedDate parsed 3
    (parseMimepartAddressHeader lib parsed "To") = some found → jsonAddresses found ≤ MAX_TEXT_BYTES
  ccAddr : reads lib receivedDate parsed 9 = false → ∀ found, given lib receivedDate parsed 4
    (parseMimepartAddressHeader lib parsed "Cc") = some found → jsonAddresses found ≤ MAX_TEXT_BYTES
  bccAddr : reads lib receivedDate parsed 9 = false → ∀ found, given lib receivedDate parsed 5
    (parseMimepartAddressHeader lib parsed "Bcc") = some found → jsonAddresses found ≤ MAX_TEXT_BYTES
  inReplyTo : reads lib receivedDate parsed 6 → ∀ text, parsed.header "In-Reply-To" = some text →
    jsonString text ≤ MAX_TEXT_BYTES
  nylasUid : reads lib receivedDate parsed 8 → ∀ text, parsed.header "X-INBOX-ID" = some text →
    text.length ≤ 64
  contentTypes : reads lib receivedDate parsed 9 → ∀ mimepart ∈ parsed.walk, AttachmentFits mimepart

theorem if_then_none {holds : α → Prop} {c : Bool} {found : Option α} :
    (∀ value, (if c then found else none) = some value → holds value) ↔
      (c → ∀ value, found = some value → holds value) := by
  cases c <;> simp

theorem Given.subject_fits (columns : Given lib receivedDate parsed msg) :
    ∀ text, msg.subject = some text → text.length ≤ 255 := by
  intro text given
  rw [columns.subject] at given
  obtain ⟨whole, _, rfl⟩ := Option.map_eq_some_iff.mp given
  exact (List.length_filter_le _ _).trans (length_unicodeSafeTruncate_le whole 255)

theorem Given.messageId_fits (columns : Given lib receivedDate parsed msg) :
    ∀ text, msg.messageIdHeader = some text → text.length ≤ 998 := by
  rw [columns.messageIdHeader, if_then_none]
  intro _ text given
  obtain ⟨whole, _, rfl⟩ := Option.map_eq_some_iff.mp given
  exact List.length_take_le 998 whole

/-- A message whose metadata was given up half-way skips every check. -/
theorem Given.abandoned_fits (columns : Given lib receivedDate parsed msg)
    (abandoned : reads lib receivedDate parsed 9 = false) :
    FitsColumns (markError lib msg) ↔ HeadersFit lib receivedDate parsed := by
  constructor
  · intro fits
    exact {
      fromAddr := columns.fromAddr ▸ fits.fromAddr
      senderAddr := columns.senderAddr ▸ fits.senderAddr
      replyTo := fun _ => columns.replyTo ▸ fits.replyTo
      toAddr := fun _ => columns.toAddr ▸ fits.toAddr
      ccAddr := fun _ => columns.ccAddr ▸ fits.ccAddr
      bccAddr := fun _ => columns.bccAddr ▸ fits.bccAddr
      inReplyTo := if_then_none.mp (columns.inReplyTo ▸ fits.inReplyTo)
      nylasUid := if_then_none.mp (columns.nylasUid ▸ fits.nylasUid)
      contentTypes := fun finished => absurd finished (by simp [abandoned]) }
  · intro short
    have noReferences : msg.references = none := by
      by_contra some
      exact absurd (columns.references (Option.isSome_iff_ne_none.mpr some)) (by simp [abandoned])
    refine {
      subject := columns.subject_fits
      snippet := fun text given => ?_
      messageIdHeader := columns.messageId_fits
      nylasUid := columns.nylasUid.symm ▸ if_then_none.mpr short.nylasUid
      fromAddr := columns.fromAddr.symm ▸ short.fromAddr
      senderAddr := columns.senderAddr.symm ▸ short.senderAddr
      replyTo := columns.replyTo.symm ▸ short.replyTo abandoned
      toAddr := columns.toAddr.symm ▸ short.toAddr abandoned
      ccAddr := columns.ccAddr.symm ▸ short.ccAddr abandoned
      bccAddr := columns.bccAddr.symm ▸ short.bccAddr abandoned
      inReplyTo := columns.inReplyTo.symm ▸ if_then_none.mpr short.inReplyTo
      references := fun found given => absurd (noReferences.symm.trans given) nofun
      parts := fun part member => absurd (columns.parts ▸ member) List.not_mem_nil }
    have blank : (markError lib msg).snippet = some [] := by
      simp only [markError, columns.snippet]
      rfl
    cases blank.symm.trans given
    exact Nat.zero_le _

theorem reads_all (lib : Library) (receivedDate : Option Int) (parsed : Parsed) :
    reads lib receivedDate parsed 9 = true ↔
      (headerErrors lib receivedDate parsed).findSome? id = none := by
  have whole : (headerErrors lib receivedDate parsed).take 9 = headerErrors lib receivedDate parsed :=
    List.take_of_length_le (by simp [headerErrors, addressHeaders])
  simp [reads, whole]

/-- The column limits hold of a message that is created from downloaded mail exactly when they
hold of what its headers give to the columns that nothing else limits. -/
theorem synced_message_fits_iff
    (created : createFromSynced lib receivedDate bodyString blockstore = .ok (msg, saved)) :
    FitsColumns msg ↔ ∀ parsed, lib.fromString bodyString = .ok parsed →
      HeadersFit lib receivedDate parsed := by
  let blank := SyncedMessage.new (lib.sha256 bodyString)
  have survives := survives_of_created created
  unfold Survives at survives
  simp only [createFromSynced] at created
  cases found : lib.fromString bodyString with
  | error e =>
    rw [found] at survives
    simp only [readMetadata, found, readMetadata.handle] at created
    rw [if_pos survives] at created
    cases created
    refine ⟨fun _ _ => by rintro ⟨⟩, fun _ => ?_⟩
    constructor <;> simp [markError, SyncedMessage.new]
  | ok parsed =>
    simp only [found] at survives
    simp only [Except.ok.injEq, forall_eq']
    have columns := parseMetadata_given lib receivedDate parsed bodyString (lib.sha256 bodyString)
    cases first : (headerErrors lib receivedDate parsed).findSome? id with
    | some e =>
      rw [first] at survives
      have abandoned : reads lib receivedDate parsed 9 = false := by
        rw [← Bool.not_eq_true, reads_all, first]
        simp
      have read := readMetadata_error lib receivedDate bodyString blank found first
      rw [read, readMetadata.handle, if_pos survives] at created
      cases created
      exact columns.abandoned_fits abandoned
    | none =>
      have finished := (reads_all lib receivedDate parsed).mpr first
      have read := readMetadata_ok lib receivedDate bodyString blank found first
      rw [read] at created
      simp only [bind, Except.bind] at created
      split at created
      · cases created
      rename_i body
      cases created
      rw [readBody_fits body columns.parts columns.subject_fits columns.messageId_fits,
        columns.nylasUid, columns.fromAddr, columns.senderAddr, columns.inReplyTo, if_then_none,
        if_then_none]
      constructor
      · rintro ⟨nylasUid, fromAddr, senderAddr, inReplyTo, attachments⟩
        exact {
          fromAddr, senderAddr, inReplyTo, nylasUid
          replyTo := by simp [finished]
          toAddr := by simp [finished]
          ccAddr := by simp [finished]
          bccAddr := by simp [finished]
          contentTypes := fun _ => attachments }
      · intro short
        exact ⟨short.nylasUid, short.fromAddr, short.senderAddr, short.inReplyTo,
          short.contentTypes finished⟩

/-- Mail whose only header is an `X-INBOX-ID` of this length. -/
def inboxMail (length : Nat) : Library :=
  plainMail (fun name => if name = "X-INBOX-ID" then some (List.replicate length 'a') else none) []

theorem inboxMail_fits : ∃ msg saved,
    createFromSynced (inboxMail 64) (some 0) [72] [] = .ok (msg, saved) ∧ FitsColumns msg := by
  obtain ⟨msg, saved, created⟩ : ∃ msg saved,
    createFromSynced (inboxMail 64) (some 0) [72] [] = .ok (msg, saved) := ⟨_, _, rfl⟩
  refine ⟨msg, saved, created, (synced_message_fits_iff created).mpr ?_⟩
  rintro _ ⟨⟩
  constructor
  case contentTypes => exact fun _ _ member => absurd member List.not_mem_nil
  all_goals decide +kernel

/-- An `X-INBOX-ID` that is longer than its column is stored as it is. -/
theorem long_inbox_id_overflows : ∃ msg saved,
    createFromSynced (inboxMail 65) (some 0) [72] [] = .ok (msg, saved) ∧ ¬ FitsColumns msg := by
  refine ⟨_, _, rfl, fun fits => ?_⟩
  exact absurd (fits.nylasUid _ rfl) (by decide)

end Synced
end SyncEngine
