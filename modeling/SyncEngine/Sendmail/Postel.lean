import Mathlib.Data.List.Infix
import SyncEngine.Sendmail.Smtplib

/-! Sending over SMTP: the connection with its authentication, the retries, and the accounting of what
has been delivered. -/
namespace SyncEngine
namespace Smtp

inductive AuthType
  | oauth2
  | password
  deriving DecidableEq

/-- The fields of a client that sending looks at, and two facts about the library under it. -/
structure Client where
  emailAddress : String
  authType : AuthType
  port : Nat
  sslRequired : Bool
  raises : Bool
  extensions : Smtplib.Extensions

def SMTP_MAX_RETRIES : Nat := 1
def SMTP_OVER_SSL_PORT : Nat := 465
def SMTP_OVER_SSL_TEST_PORT : Nat := 64465
def SMTP_AUTH_SUCCESS : Int := 235
def SMTP_AUTH_CHALLENGE : Int := 334
def SMTP_TEMP_AUTH_FAIL_CODES : List Int := [421, 454]

def sendMailException {A : Type} (message : String) (httpCode : Nat) : Prog A :=
  throw (.sendMail message httpCode none [])

def contains (text stem : String) : Bool := text.toList.tails.any (stem.toList.isPrefixOf ·)

def transformSslError : Option String → String
  | none => "Unknown connection error"
  | some strerror =>
    if "certificate verify failed".toList.isSuffixOf strerror.toList then
      "SMTP server SSL certificate verify failed"
    else strerror

/-- The text of an error. Only the first two kinds and a reply are ever asked for theirs. -/
def SMTPError.str : SMTPError → String
  | .serverDisconnected message | .other message => message
  | .response code text | .authentication code text => s!"({code}, '{text}')"
  | .recipientsRefused recipients => toString recipients

namespace Connection
variable (client : Client)

/-- Errors of the socket, those of TLS among them, but not a connection lost before the greeting. -/
def connect : Prog Unit :=
  tryCatch (do let _ ← Smtplib.connect) fun
    | .socket strerror | .ssl strerror => sendMailException (transformSslError strerror) 503
    | e => throw e

def upgradeConnection : Prog Unit := do
  let _ ← Smtplib.ehlo client.extensions
  if ((← get).features "starttls").isSome then
    tryCatch (Smtplib.starttls client.raises) fun
      | .ssl strerror =>
        if client.sslRequired then sendMailException (transformSslError strerror) 503 else pure ()
      | e => throw e
  else if client.sslRequired then sendMailException "Required SMTP STARTTLS not supported." 403

def smtpOauth2TryRefresh : Prog Unit :=
  ask fun
    | .token => some (.ok (), id)
    | .tokenError error => some (.error (.token error), id)
    | _ => none

/-- After a challenge the code is that of the NOOP that answers it. -/
def tryXoauth2 : Prog (Int × String) := do
  let (code, text) ← Smtplib.docmd
  if code = SMTP_AUTH_CHALLENGE then Smtplib.docmd else return (code, text)

def smtpOauth2 : Prog Unit := do
  let (code, text) ← tryXoauth2
  if code ∈ SMTP_TEMP_AUTH_FAIL_CODES ∧ "4.7.0".toList.isPrefixOf text.toList then
    sendMailException "Temporary provider send throttling" 429
  else if code ≠ SMTP_AUTH_SUCCESS then
    smtpOauth2TryRefresh
    let (code, _) ← tryXoauth2
    if code ≠ SMTP_AUTH_SUCCESS then
      sendMailException "Could not authenticate with the SMTP server." 403

def smtpPassword : Prog Unit :=
  tryCatch Smtplib.login fun
    | .smtp (.authentication _ _) => sendMailException "Could not authenticate with the SMTP server." 403
    | .smtp error => sendMailException error.str 403
    | e => throw e

def setup : Prog Unit := do
  modify fun session => { session with sock := false, features := fun _ => none }
  connect
  if client.port ≠ SMTP_OVER_SSL_PORT ∧ client.port ≠ SMTP_OVER_SSL_TEST_PORT then
    upgradeConnection client
  let _ ← Smtplib.ehlo client.extensions
  match client.authType with
  | .oauth2 => smtpOauth2
  | .password => smtpPassword

def sendmail (recipients : List String) : Prog Failures :=
  tryCatch (Smtplib.sendmail client.emailAddress recipients) fun
    | .unicodeEncode => sendMailException "Invalid character in recipient address" 402
    | e => throw e

/-- What leaving the `with` block does, whatever comes out of it. -/
def exit : Prog Unit :=
  tryCatch Smtplib.quit fun
    | .smtp (.serverDisconnected _) => pure ()
    | e => throw e

end Connection

/-- What a reply code and a stem of its text stand for, in some order of the dictionary. -/
def SMTP_ERRORS : Int → List (String × Nat × String)
  | 421 => [
    ("4.4.5", 503, "Server busy, try again later."),
    ("4.7.0", 429,
      "Our system has detected an unusual rate of unsolicited mail originating from your IP " ++
        "address. To protect our users from spam, mail sent from your IP address has been " ++
        "temporarily blocked."),
    ("4.7.2", 429, "Server busy, try again later.")]
  | 450 => [
    ("4.2.1", 429,
      "The user you are trying to contact is receiving mail at a rate that prevents additional " ++
        "messages from being delivered. Please resend your message at a later time."),
    ("4.3.0", 429, "Mail server temporarily rejected message."),
    ("4.7.1", 429, "Mail server temporarily rejected message.")]
  | 451 => [
    ("4.3.5", 429, "Mail server temporarily rejected message."),
    ("4.7.1", 429, "Mail server temporarily rejected message.")]
  | 452 => [
    ("4.5.3", 402, "Your message has too many recipients")]
  | 454 => [
    ("4.7.0", 429, "Cannot authenticate due to temporary system problem. Try again later.")]
  | 522 => [
    ("5.7.1", 402, "Recipient address rejected.")]
  | 530 => [
    ("5.7.0", 402, "Recipient address rejected")]
  | 535 => [
    ("5.7.1", 429, "Please log in to Gmail with your web browser and try again.")]
  | 550 => [
    ("5.1.1", 402,
      "The email account that you tried to reach does not exist. Please try double-checking the " ++
        "recipient's email address for typos or unnecessary spaces."),
    ("5.2.1", 402, "The email account that you tried to reach is disabled."),
    ("5.3.2", 429, "Server busy, try again later."),
    ("5.4.5", 429, "Daily sending quota exceeded"),
    ("5.4.6", 429, "Mail server temporarily rejected message."),
    ("5.7.0", 402, "Mail relay denied."),
    ("5.7.1", 429, "Daily sending quota exceeded"),
    ("This message was classified as SPAM and may not be delivered.", 402,
      "Message blocked due to spam content in the message."),
    ("exceeded recipient rate limit", 429, "Daily email quota for this address exceeded."),
    ("has exceeded its 24-hour sending limit.", 429, "Daily email quota for this address exceeded.")]
  | 552 => [
    ("5.2.3", 402, "Message too large"),
    ("5.3.4", 402, "Message too large"),
    ("5.7.0", 402, "Message content rejected for security reasons"),
    ("5.7.1", 402, "Message content rejected for security reasons")]
  | 553 => [
    ("5.1.2", 402,
      "Unable to find recipient domain. Please check for any spelling errors, and make sure you " ++
        "didn't enter any spaces, periods, or other punctuation after the recipient's email " ++
        "address."),
    ("5.7.1", 402, "Sender address rejected")]
  | 554 => [
    ("5.6.0", 402, "Mail message is malformed. Not accepted."),
    ("5.7.1", 402, "Message blocked due to spam content in the message.")]
  | _ => []

/-- Tells errors that no second attempt would change from those that one might. -/
def handleSendingException : SMTPError → Prog Unit
  | .serverDisconnected _ => sendMailException "The server unexpectedly closed the connection" 503
  | .recipientsRefused _ => sendMailException "Sending to all recipients failed" 402
  | .response code text | .authentication code text =>
    let (httpCode, message) := match (SMTP_ERRORS code).find? fun (stem, _) => contains text stem with
      | some (_, httpCode, message) => (httpCode, message)
      | none => (503, "Sending failed")
    throw (.sendMail message httpCode (some s!"{code} : {text}") [])
  | .other message => throw (.sendMail "Sending failed" 503 (some message) [])

section Send
variable (client : Client) (recipients : List String)

/-- The body of the `with` block. Some recipients may have got the message when it raises. -/
def submit : Prog Unit := do
  let failures ← Connection.sendmail client recipients
  if failures ≠ [] then
    throw (.sendMail "Sending to at least one recipent failed" 200 none failures)

/-- One pass through the `with` statement. What its exit raises takes the place of what its body has
come to. -/
def session : Prog Unit := do
  Connection.setup client
  let outcome ← Raising.attempt (submit client recipients)
  Connection.exit
  match outcome with
  | .ok () => pure ()
  | .error e => throw e

/-- `error` is the error of the last attempt. -/
def attempts (error : Option SMTPError) : Nat → Prog Unit
  | 0 =>
    match error with
    | none => pure ()
    | some error => handleSendingException error
  | left + 1 => do
    match ← Raising.attempt (session client recipients) with
    | .ok () => pure ()
    | .error (.smtp error) => attempts (some error) left
    | .error e => throw e

def send : Prog Unit := attempts client recipients none (SMTP_MAX_RETRIES + 1)

end Send

end Smtp
end SyncEngine
