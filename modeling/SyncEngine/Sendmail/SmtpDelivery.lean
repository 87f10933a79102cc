import SyncEngine.Sendmail.SmtpAccounting

/-! The accounting of a whole call of `send`: what it raises, and who has been sent the message. -/
namespace SyncEngine
namespace Smtp
open Raising

section Pass
variable {s : Session} (client : Client) (recipients : List String)

/-- What may come out of the body of the `with` block. -/
def Exc.Sending (e : Exc) : Prop :=
  e.IsSmtp ∨ ∃ message httpCode serverError failures, e = .sendMail message httpCode serverError failures

theorem Exc.Sending.known {e : Exc} (sending : e.Sending) : e.Known := by
  rcases sending with ⟨error, rfl⟩ | ⟨message, httpCode, serverError, failures, rfl⟩ <;> trivial

theorem Exc.Sending.quiet {e : Exc} (sending : e.Sending) : ¬ e.Escapes := by
  rcases sending with ⟨error, rfl⟩ | ⟨message, httpCode, serverError, failures, rfl⟩ <;> exact id

theorem connection_sendmail_orderly : (Connection.sendmail client recipients).Ensures s
    (Orderly Exc.Sending (Sent recipients) s) := by
  refine orderly_catch (sendmail_orderly client.emailAddress recipients) (fun _ outcome added =>
    added = [] ∧ ∃ e, outcome = .error e) ?_ ?_ (fun _ _ held => held) ?_ (fun _ _ held _ => held)
  · rintro _ later (⟨error, rfl⟩ | rfl) _
    · exact orderly_throw _ id (.inl (isSmtp error)) ⟨rfl, _, rfl⟩
    · exact orderly_throw _ id (.inr ⟨_, _, _, _, rfl⟩) ⟨rfl, _, rfl⟩
  · rintro _ (⟨error, rfl⟩ | rfl) escapes <;> exact escapes.elim
  · rintro e _ x _ minor ⟨rfl, _, rfl⟩
    rwa [List.append_nil]

theorem submit_orderly : (submit client recipients).Ensures s
    (Orderly Exc.Sending (Passed recipients) s) := by
  refine orderly_bind (connection_sendmail_orderly client recipients) (fun failures outcome added =>
    added = [] ∧ (outcome = .ok () → failures = []) ∧
      ∀ e, outcome = .error e → ∃ message httpCode serverError failures,
        e = .sendMail message httpCode serverError failures) ?_ ?_ ?_
  · intro failures later
    split
    · refine orderly_throw _ id (.inr ⟨_, _, _, _, rfl⟩) ⟨rfl, by simp, ?_⟩
      rintro _ ⟨⟩
      exact ⟨_, _, _, _, rfl⟩
    · next none => exact orderly_pure _ ⟨rfl, fun _ => not_not.mp none, by simp⟩
  · rintro failures outcome _ _ ⟨rcpts, rfl, asked, taken⟩ ⟨rfl, none, raised⟩
    rw [List.append_nil]
    cases outcome with
    | ok => exact .delivered (taken (none rfl))
    | error e =>
      obtain ⟨message, httpCode, serverError, failures, rfl⟩ := raised e rfl
      exact .partly asked
  · exact fun e added minor => .failed minor

/-- Leaving the `with` block never raises: a connection that is lost at QUIT is one that is closed. -/
theorem exit_quiet {allowed : Exc → Prop} : Connection.exit.Ensures s (Quiet allowed s) := by
  refine quiet_catch (fun e => ∃ message, e = .smtp (.serverDisconnected message)) ?_ ?_ ?_
  · exact quiet_bind (docmd_quiet fun message => ⟨message, rfl⟩) fun _ _ => quiet_modify _ rfl rfl rfl
  · rintro _ later ⟨message, rfl⟩ _
    exact quiet_pure _
  · rintro _ ⟨message, rfl⟩ escapes
    exact escapes.elim

/-- One pass opens with its connect. -/
theorem session_orderly : (session client recipients).Ensures s
    (Orderly Exc.Known (fun outcome added => ∃ tail, added = .connect :: tail ∧
      Passed recipients outcome tail) s) := by
  refine orderly_bind (setup_orderly client) (fun _ => Passed recipients) ?_ ?_ ?_
  · intro _ later
    refine orderly_attempt (submit_orderly client recipients) (fun result outcome added =>
      outcome = result ∧ added = []) ?_ ?_ ?_ ?_
    · intro outcome between held
      refine orderly_bind (orderly_unfailing exit_quiet) (fun _ final added =>
        final = outcome ∧ added = []) ?_ ?_ ?_
      · intro _ last
        cases outcome with
        | ok => exact orderly_pure _ ⟨rfl, rfl⟩
        | error e => exact orderly_throw _ (held e rfl).2 (held e rfl).1.known ⟨rfl, rfl⟩
      · rintro _ _ _ _ ⟨_, rfl⟩ ⟨rfl, rfl⟩
        exact ⟨rfl, rfl⟩
      · rintro _ _ ⟨⟨_, ⟨⟩⟩, _⟩
    · intro e sending escapes
      exact (sending.quiet escapes).elim
    · rintro outcome _ x _ passed ⟨rfl, rfl⟩
      rwa [List.append_nil]
    · exact fun e x passed _ => passed
  · rintro _ outcome _ tail rfl passed
    exact ⟨tail, rfl, passed⟩
  · rintro e _ rfl
    exact ⟨[], rfl, .failed nofun⟩

end Pass

/-- Without an error every recipient has been taken, by the pass that the trace ends with. Whoever has
been sent the message has been sent it by the last pass. -/
structure Delivery (recipients : List String) (outcome : Except Exc Unit) (trace : List Event) : Prop where
  delivered : outcome = .ok () → ∃ before rcpts,
    trace = before ++ .connect :: rcpts ++ [.data 250] ∧ List.Forall₂ Taken recipients rcpts
  once : ∀ before after, trace = before ++ .data 250 :: after → .connect ∉ after ∧ .data 250 ∉ after

section Delivery
variable {recipients : List String} {outcome : Except Exc Unit} {x y : List Event}

theorem Delivery.prepend (missing : .data 250 ∉ x) (held : Delivery recipients outcome y) :
    Delivery recipients outcome (x ++ y) := by
  constructor
  · intro returned
    obtain ⟨before, rcpts, rfl, taken⟩ := held.delivered returned
    exact ⟨x ++ before, rcpts, by simp, taken⟩
  · intro before after same
    rcases List.append_eq_append_iff.mp same with ⟨between, _, later⟩ | ⟨between, rfl, later⟩
    · exact held.once between after later
    · cases between with
      | nil => exact held.once [] after later.symm
      | cons event between =>
        cases later
        simp at missing

/-- The message is the last thing that a pass asks for. -/
theorem once_of_last {rcpts before after : List Event} (missing : .data 250 ∉ rcpts)
    (same : .connect :: (rcpts ++ [.data 250]) = before ++ .data 250 :: after) : after = [] := by
  have absent : (.data 250 : Event) ∉ .connect :: rcpts := by simp [missing]
  exact ((List.append_cons_inj_of_notMem absent List.not_mem_nil).mp same).2.2.symm

theorem missing_of_minor {added : List Event} (minor : ∀ event ∈ added, event.Minor) :
    .data 250 ∉ .connect :: added := by
  intro member
  rcases List.mem_cons.mp member with ⟨⟨⟩⟩ | later
  exact (minor _ later).2 rfl

theorem taken_isRcpt {rcpts : List Event} (taken : List.Forall₂ Taken recipients rcpts) :
    ∀ event ∈ rcpts, event.IsRcpt := by
  induction taken with
  | nil => exact nofun
  | cons accepted _ ih =>
    obtain ⟨code, _, rfl⟩ := accepted
    rintro event member
    rcases List.mem_cons.mp member with rfl | later
    · exact ⟨_, code, rfl⟩
    · exact ih event later

theorem Passed.delivery (passed : Passed recipients outcome x) :
    Delivery recipients outcome (.connect :: x) := by
  cases passed with
  | delivered taken =>
    refine ⟨fun _ => ⟨[], _, rfl, taken⟩, fun before after same => ?_⟩
    have missing := fun member => (taken_isRcpt taken _ member).minor.2 rfl
    rw [once_of_last missing same]
    exact ⟨nofun, nofun⟩
  | partly asked =>
    refine ⟨nofun, fun before after same => ?_⟩
    have missing := fun member => (asked _ member).minor.2 rfl
    rw [once_of_last missing same]
    exact ⟨nofun, nofun⟩
  | failed minor =>
    refine ⟨nofun, fun before after same => (missing_of_minor minor ?_).elim⟩
    rw [same]
    simp

end Delivery

/-- What `send` raises, errors that escape it among them. -/
def Exc.Final (e : Exc) : Prop :=
  (∃ message httpCode serverError failures, e = .sendMail message httpCode serverError failures) ∨ e.Escapes

theorem handleSendingException_orderly {recipients : List String} {s : Session} (error : SMTPError) :
    (handleSendingException error).Ensures s (Orderly Exc.Final (Delivery recipients) s) := by
  have nothing : ∀ e, Delivery recipients (.error e) [] := fun e => ⟨nofun, by simp⟩
  cases error with
  | serverDisconnected | recipientsRefused | response | authentication | other =>
    exact orderly_throw _ id (.inl ⟨_, _, _, _, rfl⟩) (nothing _)

/-- What is added after an attempt that had the result. -/
def AfterAttempt (recipients : List String) (result final : Except Exc Unit) (added : List Event) : Prop :=
  match result with
  | .error (.smtp _) => Delivery recipients final added
  | _ => final = result ∧ added = []

/-- A further attempt follows only one that has not delivered. -/
theorem attempts_orderly (client : Client) (recipients : List String) (left : Nat)
    (error : Option SMTPError) (some : left = 0 → error ≠ none) (s : Session) :
    (attempts client recipients error left).Ensures s (Orderly Exc.Final (Delivery recipients) s) := by
  induction left generalizing error s with
  | zero =>
    cases error with
    | none => exact (some rfl rfl).elim
    | some error => exact handleSendingException_orderly error
  | succ left ih =>
    refine orderly_attempt (session_orderly client recipients) (AfterAttempt recipients) ?_ ?_ ?_ ?_
    · intro outcome between held
      cases outcome with
      | ok => exact orderly_pure _ ⟨rfl, rfl⟩
      | error e =>
        obtain ⟨known, unescaped⟩ := held e rfl
        cases e with
        | smtp error => exact ih (.some error) (by simp) between
        | sendMail => exact orderly_throw _ id (.inl ⟨_, _, _, _, rfl⟩) ⟨rfl, rfl⟩
        | socket | token => exact (unescaped trivial).elim
        | ssl | unicodeEncode => exact known.elim
    · intro e known escapes
      cases e with
      | socket | token => exact ⟨rfl, .inr trivial⟩
      | sendMail | smtp | ssl | unicodeEncode => exact escapes.elim
    · rintro outcome final _ added ⟨tail, rfl, passed⟩ later
      unfold AfterAttempt at later
      split at later
      · next error =>
        cases passed with
        | failed minor => exact later.prepend (missing_of_minor minor)
      · obtain ⟨rfl, rfl⟩ := later
        rw [List.append_nil]
        exact passed.delivery
    · rintro e _ ⟨tail, rfl, passed⟩ _
      exact passed.delivery

/-- The accounting of a call by its trace. -/
structure Accounted (recipients : List String) (outcome : Except Exc Unit) (trace : List Event) : Prop
    extends Delivery recipients outcome trace where
  raises : ∀ e, outcome = .error e → ∃ message httpCode serverError failures,
    e = .sendMail message httpCode serverError failures

/-- For the script of answers that a call uses up, the accounting holds unless a forced refresh of the
access token fails or a TLS handshake breaks in the socket under it. -/
theorem accounted_iff (client : Client) (recipients : List String) (script : List Answer)
    (outcome : Except Exc Unit) (later : Session)
    (ran : (send client recipients).exec (Session.start script) = some (outcome, later))
    (usedUp : later.script = []) :
    Accounted recipients outcome later.trace ↔ ∀ answer ∈ script, ¬ answer.Breaks := by
  have held := attempts_orderly client recipients (SMTP_MAX_RETRIES + 1) none nofun _ outcome later ran
  have heard : later.heard = script := by
    have script := held.script
    rwa [usedUp, List.append_nil] at script
  obtain ⟨added, trace, delivery⟩ := held.trace
  have trace : later.trace = added := trace
  have clean := held.clean nofun
  rw [Session.Clean, heard] at clean
  rw [clean, trace]
  constructor
  · rintro accounted e rfl
    obtain ⟨message, httpCode, serverError, failures, rfl⟩ := accounted.raises e rfl
    exact id
  · intro unescaped
    refine ⟨delivery, fun e same => ?_⟩
    exact (held.raises e same).resolve_right (unescaped e same)

def gmail : Client where
  emailAddress := "alice@example.com"
  authType := .oauth2
  port := SMTP_OVER_SSL_PORT
  sslRequired := true
  raises := true
  extensions := fun _ _ => none

/-- A first attempt that loses its connection at DATA, and a second that delivers. -/
def retried : List Answer :=
  [.connected, .reply 220 "ready", .reply 250 "at your service", .reply 235 "accepted", .reply 250 "ok",
    .reply 250 "ok", .lost,
    .connected, .reply 220 "ready", .reply 250 "at your service", .reply 235 "accepted", .reply 250 "ok",
    .reply 250 "ok", .reply 354 "go ahead", .reply 250 "ok", .lost]

theorem delivered_at_second_attempt : ∃ later : Session,
    (send gmail ["bob@example.com"]).exec (Session.start retried) = some (.ok (), later) ∧
      later.script = [] ∧ Accounted ["bob@example.com"] (.ok ()) later.trace := by
  have outcome : ((send gmail ["bob@example.com"]).exec (Session.start retried)).map
      (fun (outcome, later) => (outcome, later.script)) = some (.ok (), []) := by
    decide +kernel
  obtain ⟨⟨result, later⟩, ran, same⟩ := Option.map_eq_some_iff.mp outcome
  obtain ⟨rfl, usedUp⟩ := Prod.mk.inj same
  have whole : ∀ answer ∈ retried, ¬ answer.Breaks := by simp [retried, Answer.Breaks]
  exact ⟨later, ran, usedUp, (accounted_iff gmail _ retried _ later ran usedUp).mpr whole⟩

/-- The server refuses the access token, and then the provider refuses to refresh it. -/
theorem refresh_error_escapes : ∃ later : Session,
    (send gmail ["bob@example.com"]).exec (Session.start
      [.connected, .reply 220 "ready", .reply 250 "at your service", .reply 535 "not accepted",
        .tokenError .oauth]) = some (.error (.token .oauth), later) ∧
    later.script = [] ∧ ¬ Accounted ["bob@example.com"] (.error (.token .oauth)) later.trace := by
  have outcome : ((send gmail ["bob@example.com"]).exec (Session.start
      [.connected, .reply 220 "ready", .reply 250 "at your service", .reply 535 "not accepted",
        .tokenError .oauth])).map (fun (outcome, later) => (outcome, later.script)) =
          some (.error (.token .oauth), []) := by
    decide +kernel
  obtain ⟨⟨result, later⟩, ran, same⟩ := Option.map_eq_some_iff.mp outcome
  obtain ⟨rfl, usedUp⟩ := Prod.mk.inj same
  refine ⟨later, ran, usedUp, fun accounted => ?_⟩
  obtain ⟨message, httpCode, serverError, failures, ⟨⟩⟩ := accounted.raises _ rfl

end Smtp
end SyncEngine
