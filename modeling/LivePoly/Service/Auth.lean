import LivePoly.Service.Database
import Mathlib.Data.List.MinMax

/-!
# Service.Auth

Logins, refreshes, password resets and the guard's checks of one user. A request is where its last
`await` left it; between two of its steps any other request may take steps. A statement outside a
transaction, a transaction of one lock only and a cache command are one step each. The transaction
of `resetPassword` is taken apart: it updates the user's row, revokes the sessions it sees, and
commits, and no other request sees any of that before. Times are milliseconds.
-/

namespace LivePoly
namespace Service

/-! ## Rows and cached values -/

structure SessionId where
  uuid : Nat
  deriving DecidableEq

inductive UserStatus where
  | active | suspended
  deriving DecidableEq

/-- The columns of the user's row that the requests read. Rows of users are never deleted. -/
structure AuthUser where
  passwordHash : Option String
  tokenVersion : Nat
  emailVerified : Bool
  status : UserStatus
  deletedAt : Option Nat
  deriving DecidableEq

structure AuthSession where
  id : SessionId
  refreshTokenHash : String
  createdAt : Nat
  expiresAt : Nat
  revokedAt : Option Nat
  deriving DecidableEq

structure CachedSession where
  id : SessionId
  refreshTokenHash : String
  expiresAt : Nat
  deriving DecidableEq

/-- What is signed into an access token, `exp` in seconds. -/
structure AccessToken where
  sid : SessionId
  tv : Nat
  exp : Nat
  deriving DecidableEq

structure CacheEntry (α : Type) where
  value : α
  expiresAt : Nat
  deriving DecidableEq

/-- `CacheService.get` -/
def CacheEntry.get {α : Type} (entry : Option (CacheEntry α)) (now : Nat) : Option α :=
  (entry.filter fun entry => now < entry.expiresAt).map CacheEntry.value

namespace AUTH

def accessTokenTtlSeconds : Nat := 15 * 60

def refreshTokenTtlDays : Nat := 7

def refreshTokenTtlMs : Nat := refreshTokenTtlDays * 24 * 60 * 60 * 1000

def maxActiveSessions : Nat := 3

def tokenVersionCacheTtlMs : Nat := 24 * 60 * 60 * 1000

end AUTH

inductive HttpError where
  | unauthorized (message : String)
  | forbidden (message : String) (code : Option String)
  | badRequest (message : String)
  | failed
  deriving DecidableEq

/-! ## Statements -/

namespace AuthRepository

def isActive (now : Nat) (session : AuthSession) : Bool :=
  session.revokedAt.isNone && now < session.expiresAt

def countActiveSessions (sessions : List AuthSession) (now : Nat) : Nat :=
  sessions.countP (isActive now)

/-- The row that `revokeOldestActiveSession` updates. -/
def oldestActiveSession (sessions : List AuthSession) (now : Nat) : Option AuthSession :=
  (sessions.filter (isActive now)).argmin AuthSession.createdAt

/-- An update of the session with an id. -/
def updateSession (sessions : List AuthSession) (id : SessionId)
    (f : AuthSession → AuthSession) : List AuthSession :=
  sessions.map fun session => if session.id = id then f session else session

def revoke (now : Nat) (session : AuthSession) : AuthSession :=
  { session with revokedAt := some now }

def createSession (sessions : List AuthSession) (id : SessionId) (refreshTokenHash : String)
    (expiresAt now : Nat) : List AuthSession :=
  sessions ++ [⟨id, refreshTokenHash, now, expiresAt, none⟩]

def findActiveSessionByRefreshTokenHash (sessions : List AuthSession) (refreshTokenHash : String)
    (now : Nat) : Option AuthSession :=
  sessions.find? fun session => session.refreshTokenHash = refreshTokenHash && isActive now session

def rotateSessionRefreshToken (sessions : List AuthSession) (sessionId : SessionId)
    (currentRefreshTokenHash nextRefreshTokenHash : String) (expiresAt now : Nat) :
    Option (List AuthSession) :=
  if sessions.any fun session => session.id = sessionId &&
      (session.refreshTokenHash = currentRefreshTokenHash && isActive now session) then
    some (updateSession sessions sessionId fun session =>
      { session with refreshTokenHash := nextRefreshTokenHash, expiresAt })
  else none

def updatePassword (user : AuthUser) (passwordHash : String) : AuthUser :=
  { user with passwordHash := some passwordHash, tokenVersion := user.tokenVersion + 1 }

/-- The rows that `revokeUserSessions` updates. -/
def unrevokedSessions (sessions : List AuthSession) : List AuthSession :=
  sessions.filter fun session => session.revokedAt.isNone

def revokeUserSessions (sessions revoked : List AuthSession) (now : Nat) : List AuthSession :=
  sessions.map fun session =>
    if session.id ∈ revoked.map AuthSession.id then revoke now session else session

end AuthRepository

/-! ## Checks -/

namespace AuthService

/-- What `login` checks of the row it has read. -/
def login (verifyPassword : String → String → Bool) (user : AuthUser) (password : String) :
    Except HttpError Unit := do
  match user.passwordHash.filter (· ≠ "") with
  | none => throw (.unauthorized "Invalid email or password")
  | some passwordHash =>
    unless verifyPassword passwordHash password do
      throw (.unauthorized "Invalid email or password")
    if user.deletedAt.isSome then
      throw (.forbidden "Unable to sign in" none)
    unless user.emailVerified do
      throw (.forbidden "Email verification required" (some "EMAIL_VERIFICATION_REQUIRED"))
    if user.status ≠ .active then
      throw (.unauthorized "Invalid email or password")

/-- What `refresh` checks of the row it has read. -/
def refresh (user : AuthUser) : Except HttpError Unit := do
  if user.deletedAt.isSome then
    throw (.unauthorized "Invalid refresh token")
  unless user.emailVerified do
    throw (.unauthorized "Invalid refresh token")
  if user.status ≠ .active then
    throw (.unauthorized "Invalid refresh token")

end AuthService

/-- What `AuthGuard.canActivate` checks of the row it has read. -/
def AuthGuard.validUser (user : AuthUser) (tv : Nat) : Bool :=
  user.emailVerified && user.status = .active && user.deletedAt.isNone && user.tokenVersion = tv

/-! ## Requests -/

inductive CacheWrite where
  | storeSession (session : CachedSession)
  | deleteSession (refreshTokenHash : String)
  | setTokenVersion (tokenVersion : Nat)
  | deletePasswordResetOtp
  deriving DecidableEq

/-- What a request answers when its cache commands are done. -/
inductive AuthReply where
  | login (sessionId : SessionId) (tokenVersion : Nat)
  | refresh (sessionId : SessionId) (tokenVersion : Nat)
  | resetPassword (tokenVersion : Nat)
  | canActivate
  deriving DecidableEq

inductive AuthStage where
  /-- `login`, before the transaction of `createSessionForUser` -/
  | signingIn (user : AuthUser) (refreshExpiresAt : Nat)
  /-- `refresh`, before the session is searched in the database -/
  | sessionMissed (refreshTokenHash : String)
  /-- `refresh`, before the user is read -/
  | sessionFound (sessionId : SessionId) (refreshTokenHash : String)
  /-- `refresh`, before the session is rotated -/
  | rotating (user : AuthUser) (sessionId : SessionId) (refreshTokenHash : String)
    (refreshExpiresAt : Nat)
  /-- `resetPassword`, before its transaction -/
  | resetting (passwordHash : String)
  /-- `resetPassword`, in its transaction -/
  | inTransaction
  /-- `canActivate`, before the user is read -/
  | validating (token : AccessToken) (cachedTokenVersion : Option Nat)
  /-- The commands of a list are under way at once, and one list comes after the other. A request
  of which a command failed has no answer. -/
  | writing (writes : List (List CacheWrite)) (reply : Option AuthReply)
  deriving DecidableEq

/-- The open transaction of a password reset: it holds the user's row and, once it has revoked
them, the rows of the sessions. -/
structure ResetTransaction (ρ : Type) where
  request : ρ
  user : AuthUser
  revoked : Option (List AuthSession × Nat)

structure Auth (ρ : Type) where
  now : Nat
  user : AuthUser
  sessions : List AuthSession
  transaction : Option (ResetTransaction ρ)
  sessionCache : String → Option (CacheEntry CachedSession)
  tokenVersionCache : Option (CacheEntry Nat)
  /-- The access tokens that were signed. -/
  signed : List AccessToken
  requests : ρ → Option AuthStage

/-- What happens next. What is random, and what a hash or the one-time password's check comes to,
are inputs. -/
inductive AuthInput (ρ : Type) where
  | pass (ms : Nat)
  | markEmailVerified
  | login (request : ρ) (password : String)
  | createSession (request : ρ) (id : SessionId) (refreshTokenHash : String)
  | refresh (request : ρ) (refreshTokenHash : String)
  | findSession (request : ρ)
  | findUser (request : ρ)
  | rotate (request : ρ) (nextRefreshTokenHash : String)
  | resetPassword (request : ρ) (validOtp : Bool) (passwordHash : String)
  | updatePassword (request : ρ)
  | revokeUserSessions (request : ρ)
  | commit (request : ρ)
  | canActivate (request : ρ) (token : AccessToken)
  | write (request : ρ) (write : CacheWrite)
  | writeFails (request : ρ) (write : CacheWrite)
  | reply (request : ρ)
  /-- A statement fails or the process ends. -/
  | abort (request : ρ)
  deriving DecidableEq

inductive AuthOutput where
  /-- The session of a login that has checked its password against this row. -/
  | sessionCreated (id : SessionId) (user : AuthUser)
  | loggedIn (token : AccessToken)
  | refreshed (token : AccessToken)
  | passwordReset (tokenVersion : Nat)
  /-- What the guard makes of a token that is signed and has not expired. -/
  | verdict (token : AccessToken) (accepted : Bool)
  | failed (error : HttpError)
  deriving DecidableEq

section Steps

variable {ρ : Type}

/-- A transaction has the row of the session locked. -/
def Auth.locks (m : Auth ρ) (id : SessionId) : Bool :=
  m.transaction.any fun transaction =>
    transaction.revoked.any fun revoked => id ∈ revoked.1.map AuthSession.id

/-- A random hash is that of no other token. -/
def Auth.isNewHash (m : Auth ρ) (refreshTokenHash : String) : Bool :=
  refreshTokenHash ∉ m.sessions.map AuthSession.refreshTokenHash

/-- What a cache command does; one-time passwords are not part of the state. -/
def Auth.perform (m : Auth ρ) : CacheWrite → Auth ρ
  | .storeSession session =>
    let entry : CacheEntry CachedSession := ⟨session, m.now + AUTH.refreshTokenTtlMs⟩
    { m with
      sessionCache := Function.update m.sessionCache session.refreshTokenHash (some entry) }
  | .deleteSession refreshTokenHash =>
    { m with sessionCache := Function.update m.sessionCache refreshTokenHash none }
  | .setTokenVersion tokenVersion =>
    { m with tokenVersionCache := some ⟨tokenVersion, m.now + AUTH.tokenVersionCacheTtlMs⟩ }
  | .deletePasswordResetOtp => m

/-- `jwtService.signAsync` -/
def Auth.sign (m : Auth ρ) (sid : SessionId) (tv : Nat) : AccessToken :=
  ⟨sid, tv, m.now / 1000 + AUTH.accessTokenTtlSeconds⟩

/-- `AuthGuard.verifyToken` -/
def Auth.verifyToken (m : Auth ρ) (token : AccessToken) : Bool :=
  token ∈ m.signed && m.now / 1000 < token.exp

/-- The session that `createSessionForUser` revokes to make room for another. -/
def Auth.revokedSession (m : Auth ρ) : Option AuthSession :=
  if AUTH.maxActiveSessions ≤ AuthRepository.countActiveSessions m.sessions m.now then
    AuthRepository.oldestActiveSession m.sessions m.now
  else none

/-- The commands of a request without one that is done. -/
def remainingWrites (group : List CacheWrite) (rest : List (List CacheWrite)) (write : CacheWrite) :
    List (List CacheWrite) :=
  match group.erase write with
  | [] => rest
  | group => group :: rest

variable [DecidableEq ρ]

def Auth.set (m : Auth ρ) (request : ρ) (stage : Option AuthStage) : Auth ρ :=
  { m with requests := Function.update m.requests request stage }

/-- The transaction of `createSessionForUser`. It waits for the row of the session it revokes. -/
def createSessionForUser (m : Auth ρ) (request : ρ) (user : AuthUser) (refreshExpiresAt : Nat)
    (id : SessionId) (refreshTokenHash : String) : Option (Auth ρ × List AuthOutput) :=
  let session : CachedSession := ⟨id, refreshTokenHash, refreshExpiresAt⟩
  let stored : List CacheWrite := [.storeSession session, .setTokenVersion user.tokenVersion]
  let reply := some (AuthReply.login id user.tokenVersion)
  match m.revokedSession with
  | none =>
    let sessions :=
      AuthRepository.createSession m.sessions id refreshTokenHash refreshExpiresAt m.now
    some (({ m with sessions }).set request (some (.writing [stored] reply)),
      [.sessionCreated id user])
  | some oldest =>
    if m.locks oldest.id then none
    else
      let others :=
        AuthRepository.updateSession m.sessions oldest.id (AuthRepository.revoke m.now)
      let sessions :=
        AuthRepository.createSession others id refreshTokenHash refreshExpiresAt m.now
      some (({ m with sessions }).set request
          (some (.writing [[.deleteSession oldest.refreshTokenHash], stored] reply)),
        [.sessionCreated id user])

/-- `AuthGuard.canActivate`, from the read of the user on. -/
def validateUser (m : Auth ρ) (request : ρ) (token : AccessToken)
    (cachedTokenVersion : Option Nat) : Auth ρ × List AuthOutput :=
  let setTokenVersion := some (AuthStage.writing [[.setTokenVersion m.user.tokenVersion]]
    (some .canActivate))
  if AuthGuard.validUser m.user token.tv then
    (m.set request
      (if cachedTokenVersion = some m.user.tokenVersion then none else setTokenVersion),
      [.verdict token true])
  else
    (m.set request (if m.user.tokenVersion = token.tv then none else setTokenVersion),
      [.verdict token false])

/-- The answer of a request whose commands are done. -/
def answer (m : Auth ρ) (request : ρ) : Option AuthReply → Auth ρ × List AuthOutput
  | none => (m.set request none, [.failed .failed])
  | some (.login sid tv) =>
    (({ m with signed := m.sign sid tv :: m.signed }).set request none, [.loggedIn (m.sign sid tv)])
  | some (.refresh sid tv) =>
    (({ m with signed := m.sign sid tv :: m.signed }).set request none,
      [.refreshed (m.sign sid tv)])
  | some (.resetPassword tokenVersion) => (m.set request none, [.passwordReset tokenVersion])
  | some .canActivate => (m.set request none, [])

def authStep (verifyPassword : String → String → Bool) (m : Auth ρ) :
    AuthInput ρ → Option (Auth ρ × List AuthOutput)
  | .pass ms => some ({ m with now := m.now + ms }, [])
  | .markEmailVerified =>
    if m.transaction.isSome then none
    else some ({ m with user := { m.user with emailVerified := true } }, [])
  | .login request password =>
    match m.requests request with
    | some _ => none
    | none =>
      match AuthService.login verifyPassword m.user password with
      | .error error => some (m, [.failed error])
      | .ok _ =>
        some (m.set request (some (.signingIn m.user (m.now + AUTH.refreshTokenTtlMs))), [])
  | .createSession request id refreshTokenHash =>
    match m.requests request with
    | some (.signingIn user refreshExpiresAt) =>
      if id ∉ m.sessions.map AuthSession.id ∧ m.isNewHash refreshTokenHash then
        createSessionForUser m request user refreshExpiresAt id refreshTokenHash
      else none
    | _ => none
  | .refresh request refreshTokenHash =>
    match m.requests request with
    | some _ => none
    | none =>
      match CacheEntry.get (m.sessionCache refreshTokenHash) m.now with
      | some session =>
        some (m.set request (some (.sessionFound session.id refreshTokenHash)), [])
      | none => some (m.set request (some (.sessionMissed refreshTokenHash)), [])
  | .findSession request =>
    match m.requests request with
    | some (.sessionMissed refreshTokenHash) =>
      match AuthRepository.findActiveSessionByRefreshTokenHash m.sessions refreshTokenHash m.now with
      | some session =>
        some (m.set request (some (.sessionFound session.id refreshTokenHash)), [])
      | none => some (m.set request none, [.failed (.unauthorized "Invalid refresh token")])
    | _ => none
  | .findUser request =>
    match m.requests request with
    | some (.sessionFound sessionId refreshTokenHash) =>
      match AuthService.refresh m.user with
      | .error error => some (m.set request none, [.failed error])
      | .ok _ =>
        some (m.set request (some (.rotating m.user sessionId refreshTokenHash
          (m.now + AUTH.refreshTokenTtlMs))), [])
    | some (.validating token cachedTokenVersion) =>
      some (validateUser m request token cachedTokenVersion)
    | _ => none
  | .rotate request nextRefreshTokenHash =>
    match m.requests request with
    | some (.rotating user sessionId refreshTokenHash refreshExpiresAt) =>
      match AuthRepository.rotateSessionRefreshToken m.sessions sessionId refreshTokenHash
        nextRefreshTokenHash refreshExpiresAt m.now with
      | none => some (m.set request none, [.failed (.unauthorized "Invalid refresh token")])
      | some sessions =>
        if ¬ m.locks sessionId ∧ m.isNewHash nextRefreshTokenHash then
          some (({ m with sessions }).set request (some (.writing
            [[.deleteSession refreshTokenHash],
              [.storeSession ⟨sessionId, nextRefreshTokenHash, refreshExpiresAt⟩],
              [.setTokenVersion user.tokenVersion]]
            (some (.refresh sessionId user.tokenVersion)))), [])
        else none
    | _ => none
  | .resetPassword request validOtp passwordHash =>
    match m.requests request with
    | some _ => none
    | none =>
      if validOtp then some (m.set request (some (.resetting passwordHash)), [])
      else some (m, [.failed (.badRequest "Invalid or expired password reset code")])
  | .updatePassword request =>
    match m.requests request, m.transaction with
    | some (.resetting passwordHash), none =>
      let transaction :=
        some ⟨request, AuthRepository.updatePassword m.user passwordHash, none⟩
      some (({ m with transaction }).set request (some .inTransaction), [])
    | _, _ => none
  | .revokeUserSessions request =>
    match m.transaction with
    | some ⟨owner, user, none⟩ =>
      if owner = request then
        let revoked := some (AuthRepository.unrevokedSessions m.sessions, m.now)
        some ({ m with transaction := some ⟨owner, user, revoked⟩ }, [])
      else none
    | _ => none
  | .commit request =>
    match m.transaction with
    | some ⟨owner, user, some (revoked, revokedAt)⟩ =>
      if owner = request then
        let sessions := AuthRepository.revokeUserSessions m.sessions revoked revokedAt
        let deleted := revoked.map fun session => CacheWrite.deleteSession session.refreshTokenHash
        let writes := [.deletePasswordResetOtp, .setTokenVersion user.tokenVersion] ++ deleted
        some (({ m with user, sessions, transaction := none }).set request
          (some (.writing [writes] (some (.resetPassword user.tokenVersion)))), [])
      else none
    | _ => none
  | .canActivate request token =>
    match m.requests request with
    | some _ => none
    | none =>
      if m.verifyToken token then
        match CacheEntry.get m.tokenVersionCache m.now with
        | some cached =>
          if cached ≠ token.tv then some (m, [.verdict token false])
          else some (m.set request (some (.validating token (some cached))), [])
        | none => some (m.set request (some (.validating token none)), [])
      else some (m, [.failed (.unauthorized "Authentication required")])
  | .write request write =>
    match m.requests request with
    | some (.writing (group :: rest) reply) =>
      if write ∈ group then
        some ((m.perform write).set request
          (some (.writing (remainingWrites group rest write) reply)), [])
      else none
    | _ => none
  | .writeFails request write =>
    match m.requests request with
    | some (.writing (group :: _) _) =>
      if write ∈ group then
        some (m.set request (some (.writing (remainingWrites group [] write) none)), [])
      else none
    | _ => none
  | .reply request =>
    match m.requests request with
    | some (.writing [] reply) => some (answer m request reply)
    | _ => none
  | .abort request =>
    match m.requests request with
    | none => none
    | some _ =>
      let transaction := m.transaction.filter fun transaction => transaction.request ≠ request
      some (({ m with transaction }).set request none, [])

/-- The step relation of the requests. -/
def AuthSteps (verifyPassword : String → String → Bool) (m : Auth ρ) (input : AuthInput ρ)
    (output : List AuthOutput) (m' : Auth ρ) : Prop :=
  authStep verifyPassword m input = some (m', output)

end Steps

end Service
end LivePoly
