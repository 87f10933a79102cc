import Mathlib.Logic.Function.Basic
import SyncEngine.Util.Runs

/-! The access tokens of Google accounts, kept under every scope that they grant. -/
namespace SyncEngine
namespace TokenManager

def GOOGLE_CALENDAR_SCOPE : String := "https://www.googleapis.com/auth/calendar"
def GOOGLE_EMAIL_SCOPE : String := "https://mail.google.com/"
def GOOGLE_CONTACTS_SCOPE : String := "https://www.google.com/m8/feeds"

structure GToken where
  value : String
  expiration : Int
  scopes : List String
  clientId : String
  authCredsId : Nat
  deriving DecidableEq

inductive TokenError
  | connectionError
  | oAuthError
  | other

/-- What a caller asks of a token. `owner` is the account that credentials belong to, and
`clientIds` restricts the clients that they may have been issued to. -/
structure Granted (owner : Nat → Nat) (account : Nat) (now : Int) (scope : String)
    (clientIds : Option (List String)) (gtoken : GToken) : Prop where
  fresh : now < gtoken.expiration
  scope : scope ∈ gtoken.scopes
  account : owner gtoken.authCredsId = account
  client : ∀ ids ∈ clientIds, gtoken.clientId ∈ ids

/-- An account with what `new_token` answers for it. Another call can be made with another answer
for the same account. -/
structure GmailAccount (owner : Nat → Nat) where
  id : Nat
  newToken : (now : Int) → (scope : String) → (clientIds : Option (List String)) →
    Except TokenError GToken
  granted : ∀ now scope clientIds gtoken, newToken now scope clientIds = .ok gtoken →
    Granted owner id now scope clientIds gtoken

/-- `_tokens`: account id, then scope. -/
abbrev Tokens := Nat → String → Option GToken

def cacheToken (tokens : Tokens) (account : Nat) (gtoken : GToken) : Tokens :=
  Function.update tokens account fun scope =>
    if scope ∈ gtoken.scopes then some gtoken else tokens account scope

def clearCache (tokens : Tokens) (account : Nat) : Tokens :=
  Function.update tokens account fun _ => none

section Methods
variable {owner : Nat → Nat} (now : Int) (tokens : Tokens) (account : GmailAccount owner)

/-- A new token is cached before it is returned; an error leaves the cache as it was. -/
def refresh (scope : String) (clientIds : Option (List String)) : Except TokenError GToken × Tokens :=
  match account.newToken now scope clientIds with
  | .ok gtoken => (.ok gtoken, cacheToken tokens account.id gtoken)
  | .error error => (.error error, tokens)

/-- `_get_token` -/
def getGToken (scope : String) (forceRefresh : Bool) : Except TokenError GToken × Tokens :=
  match tokens account.id scope with
  | some gtoken =>
    if !forceRefresh ∧ now < gtoken.expiration then (.ok gtoken, tokens)
    else refresh now tokens account scope none
  | none => refresh now tokens account scope none

def getTokenForEmail (forceRefresh : Bool) : Except TokenError GToken × Tokens :=
  getGToken now tokens account GOOGLE_EMAIL_SCOPE forceRefresh

def getTokenForCalendars (forceRefresh : Bool) : Except TokenError GToken × Tokens :=
  getGToken now tokens account GOOGLE_CALENDAR_SCOPE forceRefresh

def getTokenForContacts (forceRefresh : Bool) : Except TokenError GToken × Tokens :=
  getGToken now tokens account GOOGLE_CONTACTS_SCOPE forceRefresh

/-- Here a cached token is taken for its client alone. -/
def getTokenForCalendarsRestrictIds (clientIds : List String) (forceRefresh : Bool) :
    Except TokenError GToken × Tokens :=
  match tokens account.id GOOGLE_CALENDAR_SCOPE with
  | some gtoken =>
    if !forceRefresh ∧ gtoken.clientId ∈ clientIds then (.ok gtoken, tokens)
    else refresh now tokens account GOOGLE_CALENDAR_SCOPE (some clientIds)
  | none => refresh now tokens account GOOGLE_CALENDAR_SCOPE (some clientIds)

end Methods

structure State where
  now : Int
  tokens : Tokens

/-- `getToken` stands for the methods that name its scope, and for those that return the id of the
credentials as well. -/
inductive Call (owner : Nat → Nat)
  | getToken (account : GmailAccount owner) (scope : String) (forceRefresh : Bool)
  | getTokenForCalendarsRestrictIds (account : GmailAccount owner) (clientIds : List String)
    (forceRefresh : Bool)
  | clearCache (account : Nat)
  | wait (seconds : Nat)

namespace Call
variable {owner : Nat → Nat}

/-- The outcome of a call that asks for a token, and the cache after it. -/
def answer (s : State) : Call owner → Option (Except TokenError GToken) × Tokens
  | .getToken account scope forceRefresh =>
    let (result, tokens) := getGToken s.now s.tokens account scope forceRefresh
    (some result, tokens)
  | .getTokenForCalendarsRestrictIds account clientIds forceRefresh =>
    let (result, tokens) :=
      TokenManager.getTokenForCalendarsRestrictIds s.now s.tokens account clientIds forceRefresh
    (some result, tokens)
  | .clearCache account => (none, TokenManager.clearCache s.tokens account)
  | .wait _ => (none, s.tokens)

def apply (s : State) (call : Call owner) : State where
  now := match call with
    | .wait seconds => s.now + seconds
    | _ => s.now
  tokens := (call.answer s).2

/-- What the call asks of the token. -/
def Asks (now : Int) (gtoken : GToken) : Call owner → Prop
  | .getToken account scope _ => Granted owner account.id now scope none gtoken
  | .getTokenForCalendarsRestrictIds account clientIds _ =>
    Granted owner account.id now GOOGLE_CALENDAR_SCOPE (some clientIds) gtoken
  | _ => True

end Call

variable {owner : Nat → Nat}

def step (s : State) (call : Call owner) : Option State := some (call.apply s)

/-- The token that is returned, if one is, is as the call asks. -/
def Good (s : State) (call : Call owner) (_ : State) : Prop :=
  ∀ gtoken, (call.answer s).1 = some (.ok gtoken) → call.Asks s.now gtoken

/-- A call that restricts the clients, and is not forced, does not find an expired token of one of
them. -/
def Unexpired (s : State) (call : Call owner) (_ : State) : Prop :=
  ∀ account clientIds, call = .getTokenForCalendarsRestrictIds account clientIds false →
    ∀ gtoken ∈ s.tokens account.id GOOGLE_CALENDAR_SCOPE, gtoken.clientId ∈ clientIds →
      s.now < gtoken.expiration

/-- Every token is kept for its own account, under scopes that it grants. -/
def Filed (owner : Nat → Nat) (tokens : Tokens) : Prop :=
  ∀ account scope, ∀ gtoken ∈ tokens account scope,
    scope ∈ gtoken.scopes ∧ owner gtoken.authCredsId = account

section Filed
variable {tokens : Tokens} {now : Int} {account : GmailAccount owner}

theorem Filed.cacheToken {id : Nat} (filed : Filed owner tokens) (owned : owner gtoken.authCredsId = id) :
    Filed owner (cacheToken tokens id gtoken) := by
  intro other scope found member
  by_cases same : other = id
  · subst same
    simp only [TokenManager.cacheToken, Function.update_self] at member
    split at member
    · rename_i grants
      cases member
      exact ⟨grants, owned⟩
    · exact filed other scope found member
  · rw [TokenManager.cacheToken, Function.update_of_ne same] at member
    exact filed other scope found member

theorem Filed.clearCache (filed : Filed owner tokens) (account : Nat) :
    Filed owner (clearCache tokens account) := by
  intro other scope found member
  by_cases same : other = account
  · subst same
    simp [TokenManager.clearCache] at member
  · rw [TokenManager.clearCache, Function.update_of_ne same] at member
    exact filed other scope found member

theorem Filed.refresh (filed : Filed owner tokens) (scope : String) (clientIds : Option (List String)) :
    Filed owner (refresh now tokens account scope clientIds).2 := by
  unfold TokenManager.refresh
  split
  · rename_i gtoken answered
    exact filed.cacheToken (account.granted _ _ _ _ answered).account
  · exact filed

theorem refresh_granted (answered : (refresh now tokens account scope clientIds).1 = .ok gtoken) :
    Granted owner account.id now scope clientIds gtoken := by
  unfold refresh at answered
  split at answered
  · rename_i found granted
    cases answered
    exact account.granted _ _ _ _ granted
  · cases answered

theorem Filed.getGToken (filed : Filed owner tokens) (scope : String) (forceRefresh : Bool) :
    Filed owner (getGToken now tokens account scope forceRefresh).2 := by
  unfold TokenManager.getGToken
  split
  · split
    · exact filed
    · exact filed.refresh scope none
  · exact filed.refresh scope none

theorem getGToken_granted (filed : Filed owner tokens)
    (answered : (getGToken now tokens account scope forceRefresh).1 = .ok gtoken) :
    Granted owner account.id now scope none gtoken := by
  unfold getGToken at answered
  split at answered
  · rename_i found cached
    split at answered
    · rename_i usable
      cases answered
      obtain ⟨grants, owned⟩ := filed account.id scope gtoken cached
      exact ⟨usable.2, grants, owned, fun _ none => nomatch none⟩
    · exact refresh_granted answered
  · exact refresh_granted answered

theorem Filed.restrictIds (filed : Filed owner tokens) (clientIds : List String) (forceRefresh : Bool) :
    Filed owner (getTokenForCalendarsRestrictIds now tokens account clientIds forceRefresh).2 := by
  unfold getTokenForCalendarsRestrictIds
  split
  · split
    · exact filed
    · exact filed.refresh _ _
  · exact filed.refresh _ _

/-- What the restricted call returns is as asked just when it does not come expired from the
cache. -/
theorem restrictIds_granted_iff (filed : Filed owner tokens) (clientIds : List String)
    (forceRefresh : Bool) :
    (∀ gtoken, (getTokenForCalendarsRestrictIds now tokens account clientIds forceRefresh).1 = .ok gtoken →
      Granted owner account.id now GOOGLE_CALENDAR_SCOPE (some clientIds) gtoken) ↔
    (forceRefresh = false → ∀ gtoken ∈ tokens account.id GOOGLE_CALENDAR_SCOPE,
      gtoken.clientId ∈ clientIds → now < gtoken.expiration) := by
  unfold getTokenForCalendarsRestrictIds
  cases cached : tokens account.id GOOGLE_CALENDAR_SCOPE with
  | none =>
    constructor
    · rintro _ _ _ ⟨⟩
    · exact fun _ gtoken answered => refresh_granted answered
  | some found =>
    obtain ⟨grants, owned⟩ := filed account.id _ found cached
    by_cases taken : !forceRefresh ∧ found.clientId ∈ clientIds
    · simp only [if_pos taken]
      constructor
      · rintro granted _ gtoken ⟨⟩ _
        exact (granted found rfl).fresh
      · rintro unexpired gtoken ⟨⟩
        constructor
        · exact unexpired (by simpa using taken.1) found rfl taken.2
        · exact grants
        · exact owned
        · rintro ids ⟨⟩
          exact taken.2
    · simp only [if_neg taken]
      constructor
      · rintro _ unforced gtoken ⟨⟩ client
        exact absurd ⟨by simp [unforced], client⟩ taken
      · exact fun _ gtoken answered => refresh_granted answered

end Filed

theorem filed_apply (filed : Filed owner s.tokens) (call : Call owner) :
    Filed owner (call.apply s).tokens := by
  cases call with
  | getToken account scope forceRefresh => exact filed.getGToken scope forceRefresh
  | getTokenForCalendarsRestrictIds account clientIds forceRefresh =>
    exact filed.restrictIds clientIds forceRefresh
  | clearCache account => exact filed.clearCache account
  | wait seconds => exact filed

theorem good_iff_unexpired (filed : Filed owner s.tokens) (call : Call owner) :
    Good s call (call.apply s) ↔ Unexpired s call (call.apply s) := by
  cases call with
  | getToken account scope forceRefresh =>
    constructor
    · rintro _ _ _ ⟨⟩
    · intro _ gtoken answered
      exact getGToken_granted filed (Option.some.inj answered)
  | getTokenForCalendarsRestrictIds account clientIds forceRefresh =>
    have exactly := @restrictIds_granted_iff owner s.tokens s.now account filed clientIds forceRefresh
    constructor
    · rintro good _ _ ⟨⟩
      exact exactly.mp (fun gtoken answered => good gtoken (congrArg some answered)) rfl
    · intro unexpired gtoken answered
      apply exactly.mpr _ gtoken (Option.some.inj answered)
      rintro rfl
      exact unexpired account clientIds rfl
  | clearCache account | wait seconds =>
    constructor
    · rintro _ _ _ ⟨⟩
    · exact fun _ _ _ => trivial

/-- No token has been fetched yet. -/
def start (now : Int) : State := ⟨now, fun _ _ => none⟩

/-- Every token that is returned is fresh, of the account, for the scope and of an allowed client
just when no restricted call finds an expired one. -/
theorem tokens_good_iff (now : Int) (calls : List (Call owner)) :
    Runs.Each step Good (start now) calls ↔ Runs.Each step Unexpired (start now) calls := by
  have empty : Filed owner (start now).tokens := fun _ _ _ absent => nomatch absent
  apply Runs.each_iff (fun s => Filed owner s.tokens) empty
  · rintro s call _ filed ⟨⟩
    exact filed_apply filed call
  · rintro s call _ filed ⟨⟩
    exact good_iff_unexpired filed call

/-! ## A token that has expired -/

def hourToken (now : Int) : GToken where
  value := "ya29.first"
  expiration := now + 3590
  scopes := [GOOGLE_EMAIL_SCOPE, GOOGLE_CALENDAR_SCOPE]
  clientId := "web"
  authCredsId := 1

/-- The account has credentials for one client, whose tokens last an hour. -/
def oneClient : GmailAccount fun _ => 5 where
  id := 5
  newToken := fun now scope clientIds =>
    if scope ∈ (hourToken now).scopes ∧ ∀ ids ∈ clientIds, "web" ∈ ids then .ok (hourToken now)
    else .error .oAuthError
  granted := by
    intro now scope clientIds gtoken answered
    split at answered
    · rename_i possible
      cases answered
      exact ⟨Int.lt_add_of_pos_right now (by decide), possible.1, rfl, possible.2⟩
    · cases answered

def afterTwoHours : List (Call fun _ => 5) :=
  [.getToken oneClient GOOGLE_EMAIL_SCOPE false, .wait 7200,
    .getTokenForCalendarsRestrictIds oneClient ["web"] false]

/-- The token that was fetched for the mail is returned two hours later for the calendars. -/
theorem expired_token_returned : ¬ ∀ calls : List (Call fun _ => 5),
    Runs.Each step Good (start 0) calls := by
  intro always
  obtain ⟨_, later⟩ := always afterTwoHours _ rfl
  obtain ⟨_, last⟩ := later _ rfl
  have good := (last _ rfl).1
  have granted : Granted (fun _ => 5) 5 7200 GOOGLE_CALENDAR_SCOPE (some ["web"]) (hourToken 0) :=
    good (hourToken 0) rfl
  exact absurd granted.fresh (by decide)

end TokenManager
end SyncEngine
