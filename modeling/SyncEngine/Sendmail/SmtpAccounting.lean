import SyncEngine.Sendmail.SmtpRules

/-! Each step of an SMTP session against its answers: what it raises and what it adds to the trace. -/
namespace SyncEngine
namespace Smtp
open Raising

def Exc.IsSmtp (e : Exc) : Prop := ∃ error, e = .smtp error

theorem isSmtp (error : SMTPError) : Exc.IsSmtp (.smtp error) := ⟨error, rfl⟩

/-- What sending raises, errors that escape it among them. -/
def Exc.Known : Exc → Prop
  | .sendMail .. | .smtp _ | .socket _ | .token _ => True
  | .ssl _ | .unicodeEncode => False

section Commands
variable {allowed : Exc → Prop} {s : Session}
  (lost : ∀ message, allowed (.smtp (.serverDisconnected message)))
include lost

theorem getreply_quiet : Smtplib.getreply.Ensures s (Quiet allowed s) := by
  refine quiet_ask fun answer outcome change answered => ?_
  cases answer with
  | reply code text =>
    cases answered
    exact ⟨by simp [Answer.Breaks], nofun, fun _ => ⟨rfl, rfl, rfl⟩⟩
  | lost =>
    cases answered
    refine ⟨by simp [Answer.Breaks, Exc.Escapes], ?_, fun _ => ⟨rfl, rfl, rfl⟩⟩
    rintro _ ⟨⟩
    exact lost _
  | connected | refused | secured | sslError | broken | token | tokenError => cases answered

theorem docmd_quiet : Smtplib.docmd.Ensures s (Quiet allowed s) := by
  refine quiet_bind quiet_get fun session later => ?_
  split
  · exact getreply_quiet lost
  · exact quiet_throw _ id (lost _)

end Commands

section Quiet
variable {allowed : Exc → Prop} {s : Session} (smtp : ∀ error, allowed (.smtp error))
include smtp

theorem ehlo_quiet (extensions : Smtplib.Extensions) :
    (Smtplib.ehlo extensions).Ensures s (Quiet allowed s) := by
  refine quiet_bind (quiet_modify _ rfl rfl rfl) fun _ _ => quiet_bind (docmd_quiet fun _ => smtp _) ?_
  rintro ⟨code, text⟩ later
  dsimp only
  split
  · exact quiet_bind (quiet_modify _ rfl rfl rfl) fun _ _ => quiet_throw _ id (smtp _)
  · split
    · exact quiet_bind (quiet_modify _ rfl rfl rfl) fun _ _ => quiet_pure _
    · exact quiet_pure _

theorem authenticate_quiet (offered : List String) :
    (Smtplib.authenticate offered).Ensures s (Quiet allowed s) := by
  unfold Smtplib.authenticate
  split
  · refine quiet_bind (docmd_quiet fun _ => smtp _) ?_
    rintro ⟨code, text⟩ later
    dsimp only
    split
    · exact quiet_pure _
    · exact docmd_quiet fun _ => smtp _
  · split
    · exact docmd_quiet fun _ => smtp _
    · split
      · refine quiet_bind (docmd_quiet fun _ => smtp _) ?_
        rintro ⟨code, text⟩ later
        dsimp only
        split
        · exact quiet_throw _ id (smtp _)
        · exact docmd_quiet fun _ => smtp _
      · exact quiet_throw _ id (smtp _)

theorem login_quiet : Smtplib.login.Ensures s (Quiet allowed s) := by
  refine quiet_bind quiet_get fun session later => ?_
  split
  · exact quiet_throw _ id (smtp _)
  · refine quiet_bind (authenticate_quiet smtp _) ?_
    rintro ⟨code, text⟩ later
    dsimp only
    split
    · exact quiet_throw _ id (smtp _)
    · exact quiet_pure _

theorem rset_quiet : Smtplib.rset.Ensures s (Quiet allowed s) := by
  refine quiet_catch Exc.IsSmtp ?_ ?_ ?_
  · exact quiet_bind (docmd_quiet fun _ => isSmtp _) fun _ _ => quiet_pure _
  · rintro _ later ⟨error, rfl⟩ _
    cases error with
    | serverDisconnected => exact quiet_pure _
    | response | authentication | recipientsRefused | other => exact quiet_throw _ id (smtp _)
  · rintro _ ⟨error, rfl⟩ escapes
    exact escapes.elim

end Quiet

section Setup
variable {s : Session}

theorem sendMailException_quiet {allowed : Exc → Prop} (known : ∀ message httpCode serverError failures,
    allowed (.sendMail message httpCode serverError failures)) (message : String) (httpCode : Nat) :
    (sendMailException message httpCode : Prog A).Ensures s (Quiet allowed s) :=
  quiet_throw _ id (known ..)

theorem clean_hear {s : Session} (clean : s.Clean) (answer : Answer) (whole : ¬ answer.Breaks) :
    ∀ other ∈ s.heard ++ [answer], ¬ other.Breaks := by
  intro other member
  rcases List.mem_append.mp member with before | last
  · exact clean other before
  · rw [List.mem_singleton.mp last]
    exact whole

/-- A connect that fails is a `SendMailException`; a greeting that does not come is left to the retries. -/
theorem connect_orderly : Connection.connect.Ensures s
    (Orderly Exc.Known (fun _ added => added = [.connect]) s) := by
  intro outcome later ran
  simp only [Connection.connect, Smtplib.connect, exec_tryCatch, exec_bind, record, exec_modify, ask, exec_ofFun,
    Option.bind_some] at ran
  cases coming : s.script with
  | nil => simp [Session.record, coming] at ran
  | cons answer rest =>
    cases answer with
    | connected =>
      simp only [Session.record, coming, Option.map_some, Option.bind_some, Session.hear] at ran
      obtain ⟨⟨result, final⟩, inner, handled⟩ := Option.bind_eq_some_iff.mp ran
      obtain ⟨⟨reply, between⟩, replied, inner⟩ := Option.bind_eq_some_iff.mp inner
      have quiet := getreply_quiet (fun _ => isSmtp _) reply between replied
      obtain ⟨added, trace, rfl⟩ := quiet.trace
      have script : between.heard ++ between.script = s.heard ++ s.script := by
        rw [quiet.script, coming]
        simp
      have clean := fun clean : s.Clean => quiet.clean (clean_hear clean .connected id)
      have trace : between.trace = s.trace ++ [.connect] := by rw [trace, List.append_nil]
      cases reply with
      | ok reply =>
        cases inner
        cases handled
        refine ⟨script, fun before => ?_, by rintro _ ⟨⟩, _, trace, rfl⟩
        exact (clean before).trans ⟨by rintro _ _ ⟨⟩, by rintro _ _ ⟨⟩⟩
      | error e =>
        cases inner
        obtain ⟨error, rfl⟩ := quiet.raises e rfl
        cases handled
        refine ⟨script, fun before => (clean before).trans ?_, ?_, _, trace, rfl⟩
        · constructor <;> exact fun unescaped _ same => unescaped _ (by cases same; rfl)
        · rintro _ ⟨⟩
          trivial
    | refused strerror =>
      simp only [Session.record, coming, Option.map_some, Option.bind_some, Session.hear, id] at ran
      cases ran
      refine ⟨by simp [coming], fun clean => ⟨?_, fun _ => clean_hear clean _ id⟩, ?_, _, rfl, rfl⟩
      · rintro _ _ ⟨⟩
        exact id
      · rintro _ ⟨⟩
        trivial
    | reply | lost | secured | sslError | broken | token | tokenError =>
      simp [Session.record, coming] at ran

theorem starttls_quiet (raises : Bool) : (Smtplib.starttls raises).Ensures s
    (Quiet (fun e => e.Known ∨ ∃ strerror, e = .ssl strerror) s) := by
  refine quiet_bind (docmd_quiet fun _ => .inl trivial) ?_
  rintro ⟨code, text⟩ later
  dsimp only
  split
  · refine quiet_ask fun answer outcome change answered => ?_
    cases answer with
    | secured =>
      cases answered
      exact ⟨by simp [Answer.Breaks], nofun, fun _ => ⟨rfl, rfl, rfl⟩⟩
    | sslError strerror =>
      cases answered
      refine ⟨by simp [Answer.Breaks, Exc.Escapes], ?_, fun _ => ⟨rfl, rfl, rfl⟩⟩
      rintro _ ⟨⟩
      exact .inr ⟨strerror, rfl⟩
    | broken strerror =>
      cases answered
      refine ⟨by simp [Answer.Breaks, Exc.Escapes], ?_, fun _ => ⟨rfl, rfl, rfl⟩⟩
      rintro _ ⟨⟩
      exact .inl trivial
    | reply | lost | connected | refused | token | tokenError => cases answered
  · split
    · exact quiet_throw _ id (.inl trivial)
    · exact quiet_pure _

theorem upgradeConnection_quiet (client : Client) :
    (Connection.upgradeConnection client).Ensures s (Quiet Exc.Known s) := by
  refine quiet_bind (ehlo_quiet (fun _ => trivial) _) fun _ _ => quiet_bind quiet_get fun session later => ?_
  split
  · refine quiet_catch _ (starttls_quiet client.raises) ?_ ?_
    · rintro e later allowed quiet
      cases e with
      | ssl strerror =>
        dsimp only
        split
        · exact sendMailException_quiet (fun _ _ _ _ => trivial) _ _
        · exact quiet_pure _
      | sendMail | smtp | socket | token => exact quiet_throw _ quiet trivial
      | unicodeEncode => simp [Exc.Known] at allowed
    · rintro e allowed escapes
      cases e with
      | socket | token => exact ⟨rfl, trivial⟩
      | sendMail | smtp | ssl | unicodeEncode => exact escapes.elim
  · split
    · exact sendMailException_quiet (fun _ _ _ _ => trivial) _ _
    · exact quiet_pure _

theorem tryXoauth2_quiet : Connection.tryXoauth2.Ensures s (Quiet Exc.Known s) := by
  refine quiet_bind (docmd_quiet fun _ => trivial) ?_
  rintro ⟨code, text⟩ later
  dsimp only
  split
  · exact docmd_quiet fun _ => trivial
  · exact quiet_pure _

theorem smtpOauth2TryRefresh_quiet : Connection.smtpOauth2TryRefresh.Ensures s (Quiet Exc.Known s) := by
  refine quiet_ask fun answer outcome change answered => ?_
  cases answer with
  | token =>
    cases answered
    exact ⟨by simp [Answer.Breaks], nofun, fun _ => ⟨rfl, rfl, rfl⟩⟩
  | tokenError error =>
    cases answered
    refine ⟨by simp [Answer.Breaks, Exc.Escapes], ?_, fun _ => ⟨rfl, rfl, rfl⟩⟩
    rintro _ ⟨⟩
    trivial
  | reply | lost | connected | refused | secured | sslError | broken => cases answered

theorem smtpPassword_quiet : Connection.smtpPassword.Ensures s (Quiet Exc.Known s) := by
  refine quiet_catch Exc.IsSmtp (login_quiet isSmtp) ?_ ?_
  · rintro _ later ⟨error, rfl⟩ _
    cases error with
    | authentication => exact sendMailException_quiet (fun _ _ _ _ => trivial) _ _
    | serverDisconnected | response | recipientsRefused | other =>
      exact sendMailException_quiet (fun _ _ _ _ => trivial) _ _
  · rintro _ ⟨error, rfl⟩ escapes
    exact escapes.elim

theorem smtpOauth2_quiet : Connection.smtpOauth2.Ensures s (Quiet Exc.Known s) := by
  refine quiet_bind tryXoauth2_quiet ?_
  rintro ⟨code, text⟩ later
  dsimp only
  split
  · exact sendMailException_quiet (fun _ _ _ _ => trivial) _ _
  · split
    · refine quiet_bind smtpOauth2TryRefresh_quiet fun _ _ => quiet_bind tryXoauth2_quiet ?_
      rintro ⟨code, text⟩ later
      dsimp only
      split
      · exact sendMailException_quiet (fun _ _ _ _ => trivial) _ _
      · exact quiet_pure _
    · exact quiet_pure _

theorem setup_orderly (client : Client) : (Connection.setup client).Ensures s
    (Orderly Exc.Known (fun _ added => added = [.connect]) s) := by
  have greeted : ∀ authenticate : Prog Unit,
      (∀ later, authenticate.Ensures later (Quiet Exc.Known later)) → ∀ later,
        (Smtplib.ehlo client.extensions >>= fun _ => authenticate).Ensures later (Quiet Exc.Known later) :=
    fun _ authenticated _ => quiet_bind (ehlo_quiet (fun _ => trivial) _) fun _ => authenticated
  refine orderly_modify _ rfl rfl rfl (orderly_then_quiet connect_orderly fun _ later => ?_)
  dsimp only
  cases client.authType with
  | oauth2 =>
    split
    · exact quiet_bind (upgradeConnection_quiet client) fun _ => greeted _ fun _ => smtpOauth2_quiet
    · exact greeted _ (fun _ => smtpOauth2_quiet) later
  | password =>
    split
    · exact quiet_bind (upgradeConnection_quiet client) fun _ => greeted _ fun _ => smtpPassword_quiet
    · exact greeted _ (fun _ => smtpPassword_quiet) later

end Setup

/-- A recipient that the server takes. -/
def Taken (recipient : String) (event : Event) : Prop :=
  ∃ code, (code = 250 ∨ code = 251) ∧ event = .rcpt recipient code

def Event.IsRcpt (event : Event) : Prop := ∃ recipient code, event = .rcpt recipient code

/-- Events of a pass that has not delivered. -/
def Event.Minor (event : Event) : Prop := event ≠ .connect ∧ event ≠ .data 250

theorem Event.IsRcpt.minor {event : Event} (rcpt : event.IsRcpt) : event.Minor := by
  obtain ⟨recipient, code, rfl⟩ := rcpt
  exact ⟨nofun, nofun⟩

/-- What one pass adds to the trace after its connect, by what it comes to. -/
inductive Passed (recipients : List String) : Except Exc Unit → List Event → Prop
  | delivered : List.Forall₂ Taken recipients rcpts → Passed recipients (.ok ()) (rcpts ++ [.data 250])
  | partly : (∀ event ∈ rcpts, event.IsRcpt) →
      Passed recipients (.error (.sendMail message httpCode serverError failures)) (rcpts ++ [.data 250])
  | failed : (∀ event ∈ added, event.Minor) → Passed recipients (.error e) added

section Submit
variable {s : Session}

def Exc.Encoding (e : Exc) : Prop := e.IsSmtp ∨ e = .unicodeEncode

theorem addressed_quiet (address : String) : (Smtplib.addressed address).Ensures s (Quiet Exc.Encoding s) := by
  refine quiet_bind quiet_get fun session later => ?_
  split
  · split
    · exact getreply_quiet fun _ => .inl (isSmtp _)
    · exact quiet_throw _ id (.inr rfl)
  · exact quiet_throw _ id (.inl (isSmtp _))

/-- What asking for the recipients adds. Without a refusal every recipient is taken, in order. -/
def Asked (senderrs : Failures) (recipients : List String) (outcome : Except Exc Failures)
    (added : List Event) : Prop :=
  (∀ event ∈ added, event.IsRcpt) ∧
    (outcome = .ok [] → senderrs = [] ∧ List.Forall₂ Taken recipients added)

theorem rcpts_orderly (recipients : List String) (senderrs : Failures) (s : Session) :
    (Smtplib.rcpts senderrs recipients).Ensures s (Orderly Exc.Encoding (Asked senderrs recipients) s) := by
  induction recipients generalizing senderrs s with
  | nil =>
    refine orderly_pure senderrs ⟨by simp, fun none => ⟨?_, .nil⟩⟩
    cases none
    rfl
  | cons recipient rest ih =>
    rw [Smtplib.rcpts]
    refine quiet_then_orderly (addressed_quiet recipient) (fun answer outcome added => ∃ tail,
      added = .rcpt recipient answer.1 :: tail ∧ (∀ event ∈ tail, event.IsRcpt) ∧
        (outcome = .ok [] → (answer.1 = 250 ∨ answer.1 = 251) ∧ senderrs = [] ∧ List.Forall₂ Taken rest tail))
      ?_ ?_ ?_
    · rintro ⟨code, text⟩ later
      refine orderly_record ?_
      split
      · refine orderly_mono (ih _ _) ?_
        rintro outcome added ⟨rcpts, taken⟩
        refine ⟨rcpts, fun none => ?_⟩
        simpa using (taken none).1
      · next passes =>
        refine orderly_mono (ih _ _) ?_
        rintro outcome added ⟨rcpts, taken⟩
        exact ⟨rcpts, fun none => ⟨by omega, taken none⟩⟩
    · rintro ⟨code, text⟩ outcome _ ⟨tail, rfl, rcpts, taken⟩
      refine ⟨?_, fun none => ?_⟩
      · rintro event member
        rcases List.mem_cons.mp member with rfl | later
        · exact ⟨recipient, code, rfl⟩
        · exact rcpts event later
      · obtain ⟨accepts, clear, all⟩ := taken none
        exact ⟨clear, .cons ⟨code, accepts, rfl⟩ all⟩
    · exact fun e => ⟨by simp, by rintro ⟨⟩⟩

theorem data_orderly : Smtplib.data.Ensures s (Orderly Exc.Encoding (fun outcome added =>
    match outcome with
    | .ok (code, _) => added = [.data code]
    | .error _ => added = []) s) := by
  refine quiet_then_orderly (docmd_quiet fun _ => .inl (isSmtp _)) _ ?_ (fun _ _ _ held => held)
    (fun _ => rfl)
  rintro ⟨code, text⟩ later
  dsimp only
  split
  · exact orderly_throw _ id (.inl (isSmtp _)) rfl
  · refine quiet_then_orderly (docmd_quiet fun _ => .inl (isSmtp _)) _ ?_ (fun _ _ _ held => held)
      (fun _ => rfl)
    rintro ⟨code, text⟩ later
    have returned : ∀ between, (pure (code, text) : Prog (Int × String)).Ensures between
        (Orderly Exc.Encoding (fun outcome added => outcome = .ok (code, text) ∧ added = []) between) :=
      fun _ => orderly_pure (code, text) ⟨rfl, rfl⟩
    refine orderly_mono (orderly_record (returned _)) ?_
    rintro _ _ ⟨_, rfl, rfl, rfl⟩
    rfl

/-- What the library's `sendmail` adds. It raises only before the message is taken. -/
def Sent (recipients : List String) : Except Exc Failures → List Event → Prop
  | .ok failures, added => ∃ rcpts, added = rcpts ++ [.data 250] ∧ (∀ event ∈ rcpts, event.IsRcpt) ∧
      (failures = [] → List.Forall₂ Taken recipients rcpts)
  | .error _, added => ∀ event ∈ added, event.Minor

theorem refuse_orderly {A B : Type} {adds : Except Exc B → List Event → Prop} {f : A → Prog B}
    (error : SMTPError) (stops : ∀ e, adds (.error e) []) :
    (Smtplib.rset >>= fun _ => (throw (.smtp error) : Prog A) >>= f).Ensures s
      (Orderly Exc.Encoding adds s) := by
  simp only [Raising.throw_bind]
  refine quiet_then_orderly (rset_quiet fun error => .inl (isSmtp error)) (fun _ outcome added =>
    (∃ e, outcome = .error e) ∧ added = []) ?_ ?_ stops
  · exact fun _ later => orderly_throw _ id (.inl (isSmtp _)) ⟨⟨_, rfl⟩, rfl⟩
  · rintro _ _ _ ⟨⟨e, rfl⟩, rfl⟩
    exact stops e

/-- What asking for the message adds. -/
def Submitted (senderrs : Failures) : Except Exc Failures → List Event → Prop
  | .ok failures, added => failures = senderrs ∧ added = [.data 250]
  | .error _, added => ∀ event ∈ added, event.Minor

theorem submitted_orderly (senderrs : Failures) : (do
      let (code, text) ← Smtplib.data
      if code ≠ 250 then
        Smtplib.rset
        throw (.smtp (.response code text))
      return senderrs : Prog Failures).Ensures s (Orderly Exc.Encoding (Submitted senderrs) s) := by
  refine orderly_bind data_orderly (fun (code, _) outcome added => added = [] ∧
    match outcome with
    | .ok failures => failures = senderrs ∧ code = 250
    | .error _ => code ≠ 250) ?_ ?_ ?_
  · rintro ⟨code, text⟩ later
    dsimp only
    split
    · next refused => exact refuse_orderly _ fun _ => ⟨rfl, refused⟩
    · next accepted => exact orderly_pure _ ⟨rfl, rfl, not_not.mp accepted⟩
  · rintro ⟨code, text⟩ outcome _ _ rfl ⟨rfl, ends⟩
    cases outcome with
    | ok failures =>
      obtain ⟨rfl, rfl⟩ := ends
      exact ⟨rfl, rfl⟩
    | error e => simpa [Submitted, Event.Minor] using ends
  · rintro e _ rfl
    exact nofun

theorem sendmail_orderly (sender : String) (recipients : List String) :
    (Smtplib.sendmail sender recipients).Ensures s (Orderly Exc.Encoding (Sent recipients) s) := by
  refine quiet_then_orderly (addressed_quiet sender) (fun _ => Sent recipients) ?_
    (fun _ _ _ held => held) (fun _ => nofun)
  rintro ⟨code, text⟩ later
  dsimp only
  split
  · exact refuse_orderly _ fun _ => nofun
  · refine orderly_bind (rcpts_orderly recipients [] later) Submitted ?_ ?_ ?_
    · intro senderrs between
      split
      · exact refuse_orderly _ fun _ => nofun
      · exact submitted_orderly senderrs
    · rintro senderrs outcome rcpts added ⟨asked, taken⟩ submitted
      cases outcome with
      | ok failures =>
        obtain ⟨rfl, rfl⟩ := submitted
        exact ⟨rcpts, rfl, asked, fun none => (taken (by rw [none])).2⟩
      | error e =>
        intro event member
        rcases List.mem_append.mp member with rcpt | last
        · exact (asked event rcpt).minor
        · exact submitted event last
    · exact fun e rcpts asked event member => (asked.1 event member).minor

end Submit

end Smtp
end SyncEngine
