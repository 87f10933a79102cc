import SyncEngine.Util.Raising

/-! The SMTP client library against a script of what the server and the network answer. -/
namespace SyncEngine
namespace Smtp

inductive TokenError
  | oauth
  | connection
  deriving DecidableEq, Repr

/-- What one question to the surroundings is answered with: a command by a reply or a lost connection,
a connect, a TLS handshake or the refresh of an access token by its success or error. -/
inductive Answer
  | reply (code : Int) (text : String)
  | lost
  | connected
  | refused (strerror : Option String)
  | secured
  | sslError (strerror : Option String)
  | broken (strerror : Option String)
  | token
  | tokenError (error : TokenError)
  deriving DecidableEq

/-- Refused recipients with the replies that refused them. -/
abbrev Failures := List (String × Int × String)

/-- The subclasses of `SMTPException`. Those with a reply differ in nothing that is looked at. -/
inductive SMTPError
  | serverDisconnected (message : String)
  | response (code : Int) (text : String)
  | authentication (code : Int) (text : String)
  | recipientsRefused (recipients : Failures)
  | other (message : String)
  deriving DecidableEq

inductive Exc
  | sendMail (message : String) (httpCode : Nat) (serverError : Option String) (failures : Failures)
  | smtp (error : SMTPError)
  | ssl (strerror : Option String)
  | socket (strerror : Option String)
  | unicodeEncode
  | token (error : TokenError)
  deriving DecidableEq

/-- What the trace keeps of a session for the accounting. `data` has the reply to the message itself. -/
inductive Event
  | connect
  | rcpt (recipient : String) (code : Int)
  | data (code : Int)
  deriving DecidableEq

/-- `heard` has the answers so far and `script` those to come. -/
structure Session where
  script : List Answer
  heard : List Answer
  sock : Bool
  features : String → Option String
  trace : List Event

abbrev Prog := Raising Session Exc

namespace Session

def start (script : List Answer) : Session :=
  { script, heard := [], sock := false, features := fun _ => none, trace := [] }

def hear (session : Session) (answer : Answer) (rest : List Answer) : Session :=
  { session with heard := session.heard ++ [answer], script := rest }

def record (session : Session) (event : Event) : Session :=
  { session with trace := session.trace ++ [event] }

end Session

def record (event : Event) : Prog Unit := modify fun session => session.record event

/-- Asks one question. An answer that `f` does not take is none to this question. -/
def ask {A : Type} (f : Answer → Option (Except Exc A × (Session → Session))) : Prog A :=
  Raising.ofFun fun session =>
    match session.script with
    | [] => none
    | answer :: rest => (f answer).map fun (outcome, change) => (outcome, change (session.hear answer rest))

def close (session : Session) : Session := { session with sock := false }

namespace Smtplib

def getreply : Prog (Int × String) :=
  ask fun
    | .reply code text => some (.ok (code, text), id)
    | .lost => some (.error (.smtp (.serverDisconnected "Connection unexpectedly closed")), close)
    | _ => none

/-- A command needs a socket before anything is sent. -/
def docmd : Prog (Int × String) := do
  if (← get).sock then getreply else throw (.smtp (.serverDisconnected "please run connect() first"))

/-- Connects the socket, and reads the greeting whatever its code is. -/
def connect : Prog (Int × String) := do
  record .connect
  let _ ← ask fun
    | .connected => some (.ok (), fun session => { session with sock := true })
    | .refused strerror => some (.error (.socket strerror), id)
    | _ => none
  getreply

/-- How a reply to EHLO lists the extensions is the library's own business. -/
abbrev Extensions := String → String → Option String

def ehlo (extensions : Extensions) : Prog (Int × String) := do
  modify fun session => { session with features := fun _ => none }
  let (code, text) ← docmd
  if code = -1 ∧ text = "" then
    modify close
    throw (.smtp (.serverDisconnected "Server not connected"))
  if code = 250 then modify fun session => { session with features := extensions text }
  return (code, text)

/-- `raises` tells whether the library refuses to go on after a refused STARTTLS, as it does from
Python 2.7.12 on. -/
def starttls (raises : Bool) : Prog Unit := do
  let (code, text) ← docmd
  if code = 220 then
    ask fun
      | .secured => some (.ok (), fun session => { session with features := fun _ => none })
      | .sslError strerror => some (.error (.ssl strerror), id)
      | .broken strerror => some (.error (.socket strerror), id)
      | _ => none
  else if raises then throw (.smtp (.response code text))

/-- The exchange of the first method that the library prefers among those offered. -/
def authenticate (offered : List String) : Prog (Int × String) :=
  if "CRAM-MD5" ∈ offered then do
    let (code, text) ← docmd
    if code = 503 then return (code, text) else docmd
  else if "PLAIN" ∈ offered then docmd
  else if "LOGIN" ∈ offered then do
    let (code, text) ← docmd
    if code ≠ 334 then throw (.smtp (.authentication code text)) else docmd
  else throw (.smtp (.other "No suitable authentication method found."))

def login : Prog Unit := do
  match (← get).features "auth" with
  | none => throw (.smtp (.other "SMTP AUTH extension not supported by server."))
  | some methods =>
    let (code, text) ← authenticate (methods.splitOn " ")
    if code ≠ 235 ∧ code ≠ 503 then throw (.smtp (.authentication code text))

/-- RSET as the engine's own subclasses have it. -/
def rset : Prog Unit :=
  tryCatch (do let _ ← docmd) fun
    | .smtp (.serverDisconnected _) => pure ()
    | e => throw e

def isAscii (address : String) : Bool := address.toList.all fun c => c.toNat < 128

/-- Sends a command with an address in it, which has to be encoded. -/
def addressed (address : String) : Prog (Int × String) := do
  if (← get).sock then
    if isAscii address then getreply else throw .unicodeEncode
  else throw (.smtp (.serverDisconnected "please run connect() first"))

/-- The refusals are a dictionary, so that a recipient has one entry. -/
def rcpts (senderrs : Failures) : List String → Prog Failures
  | [] => pure senderrs
  | recipient :: rest => do
    let (code, text) ← addressed recipient
    record (.rcpt recipient code)
    if code ≠ 250 ∧ code ≠ 251 then
      rcpts (senderrs.filter (·.1 ≠ recipient) ++ [(recipient, code, text)]) rest
    else rcpts senderrs rest

def data : Prog (Int × String) := do
  let (code, text) ← docmd
  if code ≠ 354 then throw (.smtp (.response code text))
  let (code, text) ← docmd
  record (.data code)
  return (code, text)

def sendmail (sender : String) (recipients : List String) : Prog Failures := do
  let (code, text) ← addressed sender
  if code ≠ 250 then
    rset
    throw (.smtp (.response code text))
  let senderrs ← rcpts [] recipients
  if senderrs.length = recipients.length then
    rset
    throw (.smtp (.recipientsRefused senderrs))
  let (code, text) ← data
  if code ≠ 250 then
    rset
    throw (.smtp (.response code text))
  return senderrs

def quit : Prog Unit := do
  let _ ← docmd
  modify close

end Smtplib

end Smtp
end SyncEngine
