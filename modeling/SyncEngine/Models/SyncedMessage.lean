import Mathlib.Data.Char
import Mathlib.Data.List.Dedup
import Mathlib.Data.List.Lex
import Mathlib.Data.List.Sort
import SyncEngine.Models.ImapUid
import SyncEngine.Util.Assignments
import SyncEngine.Util.Encoding

/-! `Message.create_from_synced`: the columns of a message, and its attachments, are filled in from
a downloaded MIME message. The libraries that parse MIME, addresses, dates and HTML are parameters,
and each of their calls may raise. -/
namespace SyncEngine
namespace Synced

inductive PyError where
  | decodingError
  | attributeError
  | runtimeError
  | typeError
  | binasciiError
  | unicodeDecodeError
  | indexError
  | valueError
  | other (name : String)
deriving DecidableEq, Repr

/-- What the handler around the metadata catches. -/
def PyError.inMetadata (e : PyError) : Bool :=
  e ∈ [.decodingError, .attributeError, .runtimeError, .typeError]

/-- What the handler around each MIME part catches. -/
def PyError.inMimepart (e : PyError) : Bool :=
  e ∈ [.decodingError, .attributeError, .runtimeError, .typeError, .binasciiError,
    .unicodeDecodeError]

abbrev Bytes := List UInt8

/-- A phrase and an address. -/
abbrev Address := Unicode × Unicode

/-- What a MIME part holds: decoded text, or bytes. -/
inductive Data where
  | unicode (text : Unicode)
  | bytes (bytes : Bytes)
deriving DecidableEq, Repr

structure MimePart where
  isMultipart : Bool
  contentDisposition : Option Unicode
  contentId : Option Unicode
  contentType : Unicode
  detectedFileName : Option Unicode
  body : Option Data
deriving DecidableEq, Repr

/-- A parsed message: what its headers give, and what reading each of its parts gives. -/
structure Parsed where
  subject : Option Unicode
  /-- `headers.get` -/
  header : String → Option Unicode
  /-- `headers._v.getall` -/
  sections : String → List Unicode
  walk : List (Except PyError MimePart)

structure Library where
  sha256 : Bytes → String
  /-- `mime.from_string` -/
  fromString : Bytes → Except PyError Parsed
  /-- `rfc822.AddressList(section).addresslist` -/
  addressList : Unicode → Except PyError (List Address)
  /-- Decodes RFC 2047 encoded words. -/
  decode : Unicode → Except PyError Unicode
  /-- `datetime.utcfromtimestamp(mktime_tz(parsedate_tz(date)))`, in microseconds. -/
  emailDate : Unicode → Except PyError Int
  /-- `log.warning` with the header as a positional argument. -/
  logWarning : Unicode → Except PyError Unit
  stripTags : Unicode → Except PyError Unicode
  plaintext2html : Unicode → Except PyError Unicode
  utcnow : Int

structure Block where
  filename : Option Unicode
  contentType : Unicode
  data : Data
deriving DecidableEq, Repr

structure Part where
  block : Block
  contentId : Option Unicode
  contentDisposition : Unicode
deriving DecidableEq, Repr

/-- The columns that the function sets, and the parts that hang on the message. -/
structure SyncedMessage where
  dataSha256 : String
  subject : Option Unicode
  fromAddr : Option (List Address)
  senderAddr : Option (List Address)
  replyTo : Option (List Address)
  toAddr : Option (List Address)
  ccAddr : Option (List Address)
  bccAddr : Option (List Address)
  inReplyTo : Option Unicode
  messageIdHeader : Option Unicode
  receivedDate : Option Int
  nylasUid : Option Unicode
  references : Option (List Unicode)
  size : Option Nat
  body : Option Unicode
  snippet : Option Unicode
  decodeError : Bool
  parts : List Part
deriving DecidableEq, Repr

/-- `Message()` -/
def SyncedMessage.new (dataSha256 : String) : SyncedMessage where
  dataSha256
  subject := none
  fromAddr := none
  senderAddr := none
  replyTo := none
  toAddr := none
  ccAddr := none
  bccAddr := none
  inReplyTo := none
  messageIdHeader := none
  receivedDate := none
  nylasUid := none
  references := none
  size := none
  body := none
  snippet := none
  decodeError := false
  parts := []

/-! ## Helpers -/

/-- `os.path.splitext`: the leading dots of a file name start no extension. -/
def splitext (path : Unicode) : Unicode × Unicode :=
  let (extension, stem) := path.reverse.span (fun c => c ≠ '.' && c ≠ '/')
  match stem with
  | '.' :: stem =>
    if (stem.takeWhile (· ≠ '/')).any (· ≠ '.') then (stem.reverse, '.' :: extension.reverse)
    else (path, [])
  | _ => (path, [])

def trimFilename (filename : Unicode) (maxLen : Nat) : Except PyError Unicode :=
  if maxLen < filename.length then
    -- If we need to truncate the string, keep the extension
    let (filename, fileext) := splitext filename
    if fileext.length < maxLen - 1 then .ok (filename.take (maxLen - fileext.length) ++ fileext)
    else match filename with
      | [] => .error .indexError
      | first :: _ => .ok (first :: fileext.take (maxLen - 1))
  else .ok filename

/-- `received.split(';')` and the assignment of its two pieces. -/
def getInternaldate (lib : Library) (date received : Option Unicode) : Except PyError Int :=
  match date with
  | some date => lib.emailDate date
  | none =>
    match received with
    | none => .error .attributeError
    | some received =>
      match received.splitOn ';' with
      | [_, date] => lib.emailDate date
      | _ => .error .valueError

def parseReferences (references inReplyTo : Unicode) : Except PyError (List Unicode) := do
  let replyto ← match inReplyTo with
    | [] => pure inReplyTo
    | _ :: _ => match (pySplit inReplyTo).head? with
      | none => .error .indexError
      | some first => pure first
  if references = [] then return if replyto ≠ [] then [replyto] else []
  let references := pySplit references
  return if replyto ∈ references then references else references ++ [replyto]

/-- The order of two lists of strings, by code points. -/
def Address.le (a b : Address) : Bool := a.1 < b.1 || (a.1 = b.1 && a.2 ≤ b.2)

def parseMimepartAddressHeader (lib : Library) (mimepart : Parsed) (headerName : String) :
    Except PyError (List Address) := do
  let addresses ← (mimepart.sections headerName).mapM fun value => do
    let addresslist ← lib.addressList value
    addresslist.mapM fun (phrase, addrspec) => do
      return (← lib.decode phrase, ← lib.decode addrspec)
  return addresses.flatten.dedup.insertionSort (fun a b => Address.le a b)

/-- `len(json.dumps(text))` -/
def jsonString (text : Unicode) : Nat := 2 + (text.map jsonCharLength).sum

/-- `len(json.dumps(items))` for a list whose items have these lengths. -/
def jsonList (items : List Nat) : Nat := 2 + items.sum + 2 * (items.length - 1)

def jsonAddresses (addresses : List Address) : Nat :=
  jsonList (addresses.map fun address => jsonList [jsonString address.1, jsonString address.2])

def jsonStrings (texts : List Unicode) : Nat := jsonList (texts.map jsonString)

def MAX_TEXT_BYTES : Nat := 65535
def MAX_TEXT_CHARS : Nat := MAX_TEXT_BYTES / 4

def SNIPPET_LENGTH : Nat := 191

/-- The validator of `subject`. -/
def sanitizeSubject (value : Option Unicode) : Option Unicode :=
  value.map fun value => (unicodeSafeTruncate value 255).filter (· ≠ '\x00')

def markError (lib : Library) (message : SyncedMessage) : SyncedMessage :=
  { message with
      decodeError := true
      size := some 0
      receivedDate := message.receivedDate <|> some lib.utcnow
      body := message.body <|> some []
      snippet := message.snippet <|> some [] }

/-! ## Metadata -/

/-- The warning about a `Message-Id` that is too long. -/
def warnMessageId (lib : Library) (messageId : Option Unicode) : Except PyError Unit :=
  match messageId with
  | none => .ok ()
  | some header => if 998 < header.length then lib.logWarning header else .ok ()

def chooseReceivedDate (lib : Library) (parsed : Parsed) (receivedDate : Option Int) :
    Except PyError Int :=
  match receivedDate with
  | some date => .ok date
  | none => getInternaldate lib (parsed.header "Date") (parsed.header "Received")

/-- The attributes in the order in which `_parse_metadata` assigns them. -/
def parseMetadata (lib : Library) (parsed : Parsed) (bodyString : Bytes)
    (receivedDate : Option Int) : List (Assignment PyError SyncedMessage) :=
  let addresses := parseMimepartAddressHeader lib parsed
  let messageId := parsed.header "Message-Id"
  [.ok fun self => { self with subject := sanitizeSubject parsed.subject },
    (addresses "From").map fun found self => { self with fromAddr := some found },
    (addresses "Sender").map fun found self => { self with senderAddr := some found },
    (addresses "Reply-To").map fun found self => { self with replyTo := some found },
    (addresses "To").map fun found self => { self with toAddr := some found },
    (addresses "Cc").map fun found self => { self with ccAddr := some found },
    (addresses "Bcc").map fun found self => { self with bccAddr := some found },
    .ok fun self => { self with inReplyTo := parsed.header "In-Reply-To" },
    .ok fun self => { self with messageIdHeader := messageId.map (List.take 998) },
    (warnMessageId lib messageId).map fun _ self => self,
    (chooseReceivedDate lib parsed receivedDate).map
      fun date self => { self with receivedDate := some (date - date % 1000000) },
    .ok fun self => { self with nylasUid := parsed.header "X-INBOX-ID" },
    (parseReferences ((parsed.header "References").getD [])
      ((parsed.header "In-Reply-To").getD [])).map
        fun found self => { self with references := some found },
    .ok fun self => { self with size := some bodyString.length }]

/-- The first `try` block: `parsed` stays unless an error was handled. -/
def readMetadata (lib : Library) (receivedDate : Option Int) (bodyString : Bytes)
    (msg : SyncedMessage) : Except PyError (SyncedMessage × Option Parsed) :=
  match lib.fromString bodyString with
  | .error e => handle e msg
  | .ok parsed =>
    match assign (parseMetadata lib parsed bodyString receivedDate) msg with
    | (msg, none) => .ok (msg, some parsed)
    | (msg, some e) => handle e msg
where
  handle (e : PyError) (msg : SyncedMessage) : Except PyError (SyncedMessage × Option Parsed) :=
    if e.inMetadata then .ok (markError lib msg, none) else .error e

/-! ## MIME parts -/

/-- `data.encode('utf-8', 'strict')`, which decodes bytes as ASCII first. -/
def Data.encode : Data → Except PyError Unicode
  | .unicode text => .ok text
  | .bytes data =>
    if data.all (· < 128) then .ok (data.map fun byte => Char.ofNat byte.toNat)
    else .error .unicodeDecodeError

theorem Data.encode_error {data : Data} (failed : data.encode = .error e) :
    e = .unicodeDecodeError := by
  unfold Data.encode at failed
  split at failed
  · cases failed
  · split at failed <;> cases failed
    rfl

def normalizeNewlines : Unicode → Unicode
  | '\r' :: '\n' :: rest => '\n' :: normalizeNewlines rest
  | '\r' :: rest => '\n' :: normalizeNewlines rest
  | c :: rest => c :: normalizeNewlines rest
  | [] => []

/-- The message, and the texts that its body is made from. -/
structure Parsing where
  msg : SyncedMessage
  htmlParts : List Unicode
  plainParts : List Unicode
deriving DecidableEq, Repr

def saveAttachment (self : SyncedMessage) (data : Option Data) (contentDisposition : Unicode)
    (contentType : Unicode) (filename contentId : Option Unicode) :
    Except PyError SyncedMessage := do
  let filename ← filename.mapM fun filename => trimFilename filename 255
  let block := { filename, contentType, data := data.getD (.bytes []) }
  let part := { block, contentId := contentId.map (List.take 255), contentDisposition }
  return { self with parts := self.parts ++ [part] }

def MimePart.isText (mimepart : MimePart) : Bool := "text".toList.isPrefixOf mimepart.contentType

/-- An empty file name counts as none. -/
def MimePart.filename (mimepart : MimePart) : Option Unicode :=
  if mimepart.detectedFileName = some [] then none else mimepart.detectedFileName

def parseMimepart (lib : Library) (mimepart : MimePart) (self : Parsing) :
    Except PyError Parsing := do
  let disposition := mimepart.contentDisposition
  let contentType := mimepart.contentType
  let attach := fun (data : Option Data) (disposition : Unicode) => do
    let msg ← saveAttachment self.msg data disposition contentType mimepart.filename
      mimepart.contentId
    return { self with msg }
  if disposition ∉ [none, some "inline".toList, some "attachment".toList] then
    return { self with msg := markError lib self.msg }
  else if disposition = some "attachment".toList then
    attach mimepart.body "attachment".toList
  else if disposition = some "inline".toList ∧
      ¬ (mimepart.isText ∧ mimepart.filename = none ∧ mimepart.contentId = none) then
    attach mimepart.body "inline".toList
  else if mimepart.isText then
    match mimepart.body with
    | none => return self
    | some data =>
      let normalized := normalizeNewlines (← data.encode)
      if contentType = "text/html".toList then
        return { self with htmlParts := self.htmlParts ++ [normalized] }
      else if contentType = "text/plain".toList then
        return { self with plainParts := self.plainParts ++ [normalized] }
      else attach mimepart.body "attachment".toList
  else attach mimepart.body "attachment".toList

/-- One turn of the loop over `parsed.walk()`. -/
def walkPart (lib : Library) (self : Parsing) (mimepart : Except PyError MimePart) :
    Except PyError Parsing :=
  let parsed := mimepart.bind fun mimepart =>
    if mimepart.isMultipart then .ok self else parseMimepart lib mimepart self
  match parsed with
  | .ok self => .ok self
  | .error e => if e.inMimepart then .ok { self with msg := markError lib self.msg } else .error e

def calculatePlaintextSnippet (text : Unicode) : Unicode :=
  unicodeSafeTruncate ([' '].intercalate (pySplit text)) SNIPPET_LENGTH

def calculateBody (lib : Library) (self : Parsing) : Except PyError SyncedMessage := do
  let htmlBody := strip self.htmlParts.flatten
  let plainBody := strip (['\n'].intercalate self.plainParts)
  if htmlBody ≠ [] then
    let text ← lib.stripTags htmlBody
    return { self.msg with snippet := some (calculatePlaintextSnippet text), body := some htmlBody }
  else if plainBody ≠ [] then
    let body ← lib.plaintext2html plainBody
    return { self.msg with snippet := some (calculatePlaintextSnippet plainBody), body := some body }
  else return { self.msg with snippet := some [], body := some [] }

/-- `len(json.dumps(value))`, where `None` is written as `null`. -/
def jsonOptional (length : α → Nat) : Option α → Nat
  | none => 4
  | some value => length value

/-- A field that the loop over recipient fields reads and empties. -/
structure RecipientField where
  length : SyncedMessage → Nat
  empty : SyncedMessage → SyncedMessage

def recipientFields : List RecipientField :=
  [⟨fun msg => jsonOptional jsonAddresses msg.toAddr, fun msg => { msg with toAddr := some [] }⟩,
    ⟨fun msg => jsonOptional jsonAddresses msg.ccAddr, fun msg => { msg with ccAddr := some [] }⟩,
    ⟨fun msg => jsonOptional jsonAddresses msg.bccAddr, fun msg => { msg with bccAddr := some [] }⟩,
    ⟨fun msg => jsonOptional jsonStrings msg.references,
      fun msg => { msg with references := some [] }⟩,
    ⟨fun msg => jsonOptional jsonAddresses msg.replyTo, fun msg => { msg with replyTo := some [] }⟩]

/-- One turn of that loop: a field that is too long is emptied. -/
def emptyIfTooLong (lib : Library) (msg : SyncedMessage) (field : RecipientField) :
    SyncedMessage :=
  if MAX_TEXT_CHARS < field.length msg then markError lib (field.empty msg) else msg

/-! ## The message -/

/-- The raw messages that are saved, by hash. -/
abbrev Blockstore := List (String × Bytes)

def saveToBlockstore (dataSha256 : String) (data : Bytes) (blockstore : Blockstore) : Blockstore :=
  if data = [] then blockstore else (dataSha256, data) :: blockstore

/-- The parts, the body and the recipient fields, for a message whose metadata was parsed. -/
def readBody (lib : Library) (parsed : Parsed) (msg : SyncedMessage) :
    Except PyError SyncedMessage := do
  let parsing ← parsed.walk.foldlM (walkPart lib) { msg, htmlParts := [], plainParts := [] }
  let msg ← calculateBody lib parsing
  return recipientFields.foldl (emptyIfTooLong lib) msg

def createFromSynced (lib : Library) (receivedDate : Option Int) (bodyString : Bytes)
    (blockstore : Blockstore) : Except PyError (SyncedMessage × Blockstore) := do
  let dataSha256 := lib.sha256 bodyString
  -- Persist the raw MIME message to disk/ S3
  let blockstore := saveToBlockstore dataSha256 bodyString blockstore
  let (msg, parsed) ← readMetadata lib receivedDate bodyString (.new dataSha256)
  match parsed with
  | none => return (msg, blockstore)
  | some parsed => return (← readBody lib parsed msg, blockstore)

end Synced
end SyncEngine
