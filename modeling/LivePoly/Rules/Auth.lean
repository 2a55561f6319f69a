import LivePoly.Service.Auth
import LivePoly.Lib.Trace

/-!
# Rules.Auth

Logins, refreshes, resets and checks of one user, in any order of their steps. Two orders go wrong.
A login that has checked the old password may create its session when the reset no longer sees it,
and a refresh then signs tokens of the new version for it. And a request may write the version it
has read to the cache when the user's row has a later one, so that the guard rejects tokens the
row would admit. Where no login and no cache command comes late like that, a reset cuts off every
earlier login and the cache changes no verdict.
-/

namespace LivePoly
namespace Rules

open Service Trace

variable {ρ : Type}

/-! ## What is claimed of the requests -/

/-- A user that is registered and has no session. -/
def registered (user : AuthUser) (now : Nat) : Auth ρ :=
  ⟨now, user, [], none, fun _ => none, none, [], fun _ => none⟩

/-- A session is created while the user's row has the version with which the password was checked,
and not once a reset under way has revoked the sessions it sees. -/
def CreatesCurrent (m : Auth ρ) : AuthInput ρ → Prop
  | .createSession request _ _ => ∀ user refreshExpiresAt,
    m.requests request = some (.signingIn user refreshExpiresAt) →
      user.tokenVersion = m.user.tokenVersion ∧
        ∀ transaction, m.transaction = some transaction → transaction.revoked = none
  | _ => True

/-- The version that is written to the cache is the one of the user's row. -/
def CachesCurrent (m : Auth ρ) : AuthInput ρ → Prop
  | .write _ (.setTokenVersion tokenVersion) => tokenVersion = m.user.tokenVersion
  | _ => True

/-! ## What a step can do -/

/-- The sessions are the same ones, and none that was revoked is not any more. -/
structure Narrows (sessions sessions' : List AuthSession) : Prop where
  ids : sessions'.map AuthSession.id = sessions.map AuthSession.id
  unrevoked : ∀ session ∈ sessions', session.revokedAt = none →
    ∃ before ∈ sessions, before.id = session.id ∧ before.revokedAt = none

theorem narrows_map {sessions : List AuthSession} {f : AuthSession → AuthSession}
    (hid : ∀ session, (f session).id = session.id)
    (hrevoked : ∀ session, (f session).revokedAt = none → session.revokedAt = none) :
    Narrows sessions (sessions.map f) where
  ids := by
    rw [List.map_map]
    exact List.map_congr_left fun session _ => hid session
  unrevoked := by
    intro session hsession hnone
    obtain ⟨before, hbefore, rfl⟩ := List.mem_map.mp hsession
    exact ⟨before, hbefore, (hid before).symm, hrevoked before hnone⟩

theorem Narrows.refl (sessions : List AuthSession) : Narrows sessions sessions where
  ids := rfl
  unrevoked := fun session hsession hnone => ⟨session, hsession, rfl, hnone⟩

theorem updateSession_narrows {sessions : List AuthSession} {id : SessionId}
    {f : AuthSession → AuthSession} (hid : ∀ session, (f session).id = session.id)
    (hrevoked : ∀ session, (f session).revokedAt = none → session.revokedAt = none) :
    Narrows sessions (AuthRepository.updateSession sessions id f) := by
  refine narrows_map ?_ ?_
  · intro session
    split
    · exact hid session
    · rfl
  · intro session hnone
    split at hnone
    · exact hrevoked session hnone
    · exact hnone

theorem revokeUserSessions_narrows (sessions revoked : List AuthSession) (now : Nat) :
    Narrows sessions (AuthRepository.revokeUserSessions sessions revoked now) := by
  refine narrows_map ?_ ?_
  · intro session
    split <;> rfl
  · intro session hnone
    split at hnone
    · cases hnone
    · exact hnone

/-- A request comes to a stage that is not yet bound to a version, or it has just read the row. -/
def NewStage (m : Auth ρ) : AuthStage → Prop
  | .signingIn user _ | .rotating user _ _ _ => user.tokenVersion = m.user.tokenVersion
  | .writing _ reply => reply = none ∨ reply = some .canActivate
  | .validating token _ => token ∈ m.signed
  | _ => True

/-- The guard rejects a token for what the cache says. -/
def RejectsFast (m : Auth ρ) (token : AccessToken) : Prop :=
  m.verifyToken token = true ∧
    ∃ cached, CacheEntry.get m.tokenVersionCache m.now = some cached ∧ cached ≠ token.tv

/-- No session and no reset; a verdict is what the row or what the cache says. -/
def PlainOutput (m : Auth ρ) : AuthOutput → Prop
  | .sessionCreated _ _ | .passwordReset _ => False
  | .verdict token accepted =>
    (accepted = AuthGuard.validUser m.user token.tv ∧
      ∃ request cached, m.requests request = some (.validating token cached)) ∨
      accepted = false ∧ RejectsFast m token
  | _ => True

/-- Neither the version nor a session, a token or the cached version changes, and no transaction is
opened. -/
structure Untouched (m m' : Auth ρ) : Prop where
  tokenVersion : m'.user.tokenVersion = m.user.tokenVersion
  sessions : m'.sessions = m.sessions
  signed : m'.signed = m.signed
  tokenVersionCache : m'.tokenVersionCache = m.tokenVersionCache
  transaction : ∀ transaction, m'.transaction = some transaction →
    m.transaction = some transaction

section Steps

variable [DecidableEq ρ]

/-- What a step does, as far as versions, sessions and tokens go. -/
inductive AuthMove (m : Auth ρ) : AuthInput ρ → List AuthOutput → Auth ρ → Prop
  | goes {input output m'} (huntouched : Untouched m m')
      (hrequests : ∀ request stage, m'.requests request = some stage →
        m.requests request = some stage ∨ NewStage m stage)
      (houtput : ∀ event ∈ output, PlainOutput m event) : AuthMove m input output m'
  | creates {request user refreshExpiresAt id refreshTokenHash others session writes}
      (hstage : m.requests request = some (.signingIn user refreshExpiresAt))
      (hnew : id ∉ m.sessions.map AuthSession.id) (hothers : Narrows m.sessions others)
      (hid : session.id = id)
      (hwrites : CacheWrite.setTokenVersion user.tokenVersion ∈ writes.flatten) :
      AuthMove m (.createSession request id refreshTokenHash) [.sessionCreated id user]
        (({ m with sessions := others ++ [session] }).set request
          (some (.writing writes (some (.login id user.tokenVersion)))))
  | rotates {request user sessionId refreshTokenHash refreshExpiresAt next sessions writes}
      (hstage : m.requests request =
        some (.rotating user sessionId refreshTokenHash refreshExpiresAt))
      (hsession : ∃ session ∈ m.sessions, session.id = sessionId ∧ session.revokedAt = none)
      (hsessions : Narrows m.sessions sessions)
      (hwrites : CacheWrite.setTokenVersion user.tokenVersion ∈ writes.flatten) :
      AuthMove m (.rotate request next) []
        (({ m with sessions }).set request
          (some (.writing writes (some (.refresh sessionId user.tokenVersion)))))
  | opens {request passwordHash} (hnone : m.transaction = none) :
      AuthMove m (.updatePassword request) []
        (({ m with
          transaction := some ⟨request, AuthRepository.updatePassword m.user passwordHash, none⟩
            }).set request (some .inTransaction))
  | revokes {request user} (hopen : m.transaction = some ⟨request, user, none⟩) :
      AuthMove m (.revokeUserSessions request) []
        { m with
          transaction :=
            some ⟨request, user, some (AuthRepository.unrevokedSessions m.sessions, m.now)⟩ }
  | commits {request user revoked revokedAt writes}
      (hopen : m.transaction = some ⟨request, user, some (revoked, revokedAt)⟩) :
      AuthMove m (.commit request) []
        (({ m with
          user, transaction := none
          sessions := AuthRepository.revokeUserSessions m.sessions revoked revokedAt }).set request
            (some (.writing writes (some (.resetPassword user.tokenVersion)))))
  | writes {request group rest reply write}
      (hstage : m.requests request = some (.writing (group :: rest) reply))
      (hmem : write ∈ group) :
      AuthMove m (.write request write) []
        ((m.perform write).set request (some (.writing (remainingWrites group rest write) reply)))
  | answers {request reply} (hstage : m.requests request = some (.writing [] reply)) :
      AuthMove m (.reply request) (answer m request reply).2 (answer m request reply).1

variable {verifyPassword : String → String → Bool} {m m' : Auth ρ} {input : AuthInput ρ}
  {output : List AuthOutput}

theorem set_goes {request : ρ} {stage : Option AuthStage}
    (hstage : ∀ s, stage = some s → NewStage m s) (houtput : ∀ event ∈ output, PlainOutput m event) :
    AuthMove m input output (m.set request stage) := by
  refine .goes ⟨rfl, rfl, rfl, rfl, fun _ h => h⟩ ?_ houtput
  intro other s hs
  by_cases hother : other = request
  · subst hother
    exact .inr (hstage s (by simpa [Auth.set] using hs))
  · left
    simpa [Auth.set, hother] using hs

theorem stays_goes (houtput : ∀ event ∈ output, PlainOutput m event) :
    AuthMove m input output m :=
  .goes ⟨rfl, rfl, rfl, rfl, fun _ h => h⟩ (fun _ _ h => .inl h) houtput

theorem createSessionForUser_move {request : ρ} {user : AuthUser} {refreshExpiresAt : Nat}
    {id : SessionId} {refreshTokenHash : String}
    (hstage : m.requests request = some (.signingIn user refreshExpiresAt))
    (hnew : id ∉ m.sessions.map AuthSession.id)
    (h : createSessionForUser m request user refreshExpiresAt id refreshTokenHash =
      some (m', output)) :
    AuthMove m (.createSession request id refreshTokenHash) output m' := by
  unfold createSessionForUser at h
  cases hrevoked : m.revokedSession with
  | none =>
    rw [hrevoked] at h
    cases h
    exact .creates hstage hnew (.refl _) rfl (by simp)
  | some oldest =>
    rw [hrevoked] at h
    simp only at h
    split at h
    · cases h
    · cases h
      refine .creates hstage hnew (updateSession_narrows (fun _ => rfl) ?_) rfl (by simp)
      intro session hnone
      cases hnone

theorem AuthMove.of_eq {next : Auth ρ × List AuthOutput} (hmove : AuthMove m input next.2 next.1)
    (h : some next = some (m', output)) : AuthMove m input output m' := by
  cases h
  exact hmove

theorem validateUser_move {request : ρ} {token : AccessToken} {cached : Option Nat}
    (hstage : m.requests request = some (.validating token cached)) :
    AuthMove m input (validateUser m request token cached).2
      (validateUser m request token cached).1 := by
  unfold validateUser
  simp only
  have hwriting : ∀ (p : Prop) [Decidable p] (writes : List (List CacheWrite)) (s : AuthStage),
      (if p then none else some (AuthStage.writing writes (some .canActivate))) = some s →
        NewStage m s := by
    intro p _ writes s hs
    split at hs
    · cases hs
    · cases hs
      exact .inr rfl
  cases hvalid : AuthGuard.validUser m.user token.tv with
  | true =>
    refine set_goes (hwriting _ _) ?_
    intro event hevent
    cases List.mem_singleton.mp hevent
    exact .inl ⟨hvalid.symm, request, cached, hstage⟩
  | false =>
    refine set_goes (hwriting _ _) ?_
    intro event hevent
    cases List.mem_singleton.mp hevent
    exact .inl ⟨hvalid.symm, request, cached, hstage⟩

omit [DecidableEq ρ] in
theorem plain_failed {error : HttpError} :
    ∀ event ∈ [AuthOutput.failed error], PlainOutput m event := by
  intro event hevent
  cases List.mem_singleton.mp hevent
  trivial

theorem rotateSessionRefreshToken_eq_some {sessions sessions' : List AuthSession}
    {sessionId : SessionId} {current next : String} {expiresAt now : Nat}
    (h : AuthRepository.rotateSessionRefreshToken sessions sessionId current next expiresAt now =
      some sessions') :
    (∃ session ∈ sessions, session.id = sessionId ∧ session.revokedAt = none) ∧
      Narrows sessions sessions' := by
  unfold AuthRepository.rotateSessionRefreshToken at h
  split at h
  · rename_i hany
    cases h
    refine ⟨?_, updateSession_narrows (fun _ => rfl) fun _ h => h⟩
    obtain ⟨session, hsession, htest⟩ := List.any_eq_true.mp hany
    simp only [AuthRepository.isActive, Bool.and_eq_true, decide_eq_true_eq,
      Option.isNone_iff_eq_none] at htest
    exact ⟨session, hsession, htest.1, htest.2.2.1⟩
  · cases h

omit [DecidableEq ρ] in
theorem verifyToken_signed {token : AccessToken} (h : m.verifyToken token = true) :
    token ∈ m.signed := by
  unfold Auth.verifyToken at h
  rw [Bool.and_eq_true] at h
  exact of_decide_eq_true h.1

theorem authStep_move (h : AuthSteps verifyPassword m input output m') :
    AuthMove m input output m' := by
  unfold AuthSteps authStep at h
  cases input with
  | pass ms =>
    cases h
    exact .goes ⟨rfl, rfl, rfl, rfl, fun _ h => h⟩ (fun _ _ h => .inl h) (List.forall_mem_nil _)
  | markEmailVerified =>
    simp only at h
    split at h
    · cases h
    · cases h
      exact .goes ⟨rfl, rfl, rfl, rfl, fun _ h => h⟩ (fun _ _ h => .inl h) (List.forall_mem_nil _)
  | login request password =>
    simp only at h
    split at h
    · cases h
    · split at h
      · cases h
        exact stays_goes plain_failed
      · cases h
        refine set_goes ?_ (List.forall_mem_nil _)
        intro s hs
        cases hs
        rfl
  | createSession request id refreshTokenHash =>
    simp only at h
    split at h
    · rename_i user refreshExpiresAt hstage
      split at h
      · rename_i hnew
        exact createSessionForUser_move hstage hnew.1 h
      · cases h
    · cases h
  | refresh request refreshTokenHash =>
    simp only at h
    split at h
    · cases h
    · split at h
      all_goals
        cases h
        refine set_goes ?_ (List.forall_mem_nil _)
        intro s hs
        cases hs
        trivial
  | findSession request =>
    simp only at h
    split at h
    · split at h
      · cases h
        refine set_goes ?_ (List.forall_mem_nil _)
        intro s hs
        cases hs
        trivial
      · cases h
        exact set_goes (fun _ hs => by cases hs) plain_failed
    · cases h
  | findUser request =>
    simp only at h
    split at h
    · split at h
      · cases h
        exact set_goes (fun _ hs => by cases hs) plain_failed
      · cases h
        refine set_goes ?_ (List.forall_mem_nil _)
        intro s hs
        cases hs
        rfl
    · rename_i hstage
      exact (validateUser_move hstage).of_eq h
    · cases h
  | rotate request next =>
    simp only at h
    split at h
    · rename_i user sessionId refreshTokenHash refreshExpiresAt hstage
      split at h
      · cases h
        exact set_goes (fun _ hs => by cases hs) plain_failed
      · rename_i sessions hrotate
        obtain ⟨hsession, hsessions⟩ := rotateSessionRefreshToken_eq_some hrotate
        split at h
        · cases h
          exact .rotates hstage hsession hsessions (by simp)
        · cases h
    · cases h
  | resetPassword request validOtp passwordHash =>
    simp only at h
    split at h
    · cases h
    · split at h
      · cases h
        refine set_goes ?_ (List.forall_mem_nil _)
        intro s hs
        cases hs
        trivial
      · cases h
        exact stays_goes plain_failed
  | updatePassword request =>
    simp only at h
    split at h
    · rename_i hnone
      cases h
      exact .opens hnone
    · cases h
  | revokeUserSessions request =>
    simp only at h
    split at h
    · rename_i hopen
      split at h
      · rename_i howner
        cases howner
        cases h
        exact .revokes hopen
      · cases h
    · cases h
  | commit request =>
    simp only at h
    split at h
    · rename_i hopen
      split at h
      · rename_i howner
        cases howner
        cases h
        exact .commits hopen
      · cases h
    · cases h
  | canActivate request token =>
    simp only at h
    split at h
    · cases h
    · split at h
      · rename_i htoken
        have hvalidating : ∀ cached s, some (AuthStage.validating token cached) = some s →
            NewStage m s := by
          intro cached s hs
          cases hs
          exact verifyToken_signed htoken
        split at h
        · rename_i cached hcached
          split at h
          · rename_i hne
            cases h
            refine stays_goes fun event hevent => ?_
            cases List.mem_singleton.mp hevent
            exact .inr ⟨rfl, htoken, cached, hcached, hne⟩
          · cases h
            exact set_goes (hvalidating _) (List.forall_mem_nil _)
        · cases h
          exact set_goes (hvalidating _) (List.forall_mem_nil _)
      · cases h
        exact stays_goes plain_failed
  | write request write =>
    simp only at h
    split at h
    · rename_i hstage
      split at h
      · rename_i hmem
        cases h
        exact .writes hstage hmem
      · cases h
    · cases h
  | writeFails request write =>
    simp only at h
    split at h
    · split at h
      · cases h
        refine set_goes ?_ (List.forall_mem_nil _)
        intro s hs
        cases hs
        exact .inl rfl
      · cases h
    · cases h
  | reply request =>
    simp only at h
    split at h
    · rename_i hstage
      exact (AuthMove.answers hstage).of_eq h
    · cases h
  | abort request =>
    simp only at h
    split at h
    · cases h
    · cases h
      refine .goes ⟨rfl, rfl, rfl, rfl, ?_⟩ ?_ (List.forall_mem_nil _)
      · intro transaction htransaction
        exact (Option.filter_eq_some_iff.mp htransaction).1
      · intro other stage hstage
        by_cases hother : other = request
        · subst hother
          simp [Auth.set] at hstage
        · left
          simpa [Auth.set, hother] using hstage

/-! ## Versions -/

/-- The version a request is bound to. -/
def boundVersion : AuthStage → Nat
  | .signingIn user _ | .rotating user _ _ _ => user.tokenVersion
  | .writing _ (some (.login _ tokenVersion)) | .writing _ (some (.refresh _ tokenVersion))
  | .writing _ (some (.resetPassword tokenVersion)) => tokenVersion
  | _ => 0

/-- The session and the version of the token that a request is going to sign. -/
def signs : AuthStage → Option (SessionId × Nat)
  | .writing _ (some (.login sid tv)) | .writing _ (some (.refresh sid tv)) => some (sid, tv)
  | _ => none

/-- No version is ahead of the user's row, and a transaction under way raises it by one. -/
structure Dated (events : List AuthOutput) (m : Auth ρ) : Prop where
  bound : ∀ request stage, m.requests request = some stage →
    boundVersion stage ≤ m.user.tokenVersion
  verified : ∀ request token cached, m.requests request = some (.validating token cached) →
    token ∈ m.signed
  signed : ∀ token ∈ m.signed, token.tv ≤ m.user.tokenVersion
  raised : ∀ transaction, m.transaction = some transaction →
    transaction.user.tokenVersion = m.user.tokenVersion + 1
  reset : ∀ tokenVersion, AuthOutput.passwordReset tokenVersion ∈ events →
    tokenVersion ≤ m.user.tokenVersion

omit [DecidableEq ρ] in
theorem NewStage.boundVersion_le {stage : AuthStage} (h : NewStage m stage) :
    boundVersion stage ≤ m.user.tokenVersion := by
  cases stage with
  | signingIn user _ => exact Nat.le_of_eq h
  | rotating user _ _ _ => exact Nat.le_of_eq h
  | writing writes reply =>
    rcases h with rfl | rfl
    · exact Nat.zero_le _
    · exact Nat.zero_le _
  | _ => exact Nat.zero_le _

omit [DecidableEq ρ] in
theorem NewStage.signs_eq {stage : AuthStage} (h : NewStage m stage) : signs stage = none := by
  cases stage with
  | writing writes reply =>
    rcases h with rfl | rfl
    · rfl
    · rfl
  | _ => rfl

theorem set_requests {request other : ρ} {stage : Option AuthStage} {s : AuthStage}
    (h : (m.set request stage).requests other = some s) :
    other = request ∧ stage = some s ∨ m.requests other = some s := by
  by_cases hother : other = request
  · subst hother
    exact .inl ⟨rfl, by simpa [Auth.set] using h⟩
  · exact .inr (by simpa [Auth.set, hother] using h)

omit [DecidableEq ρ] in
theorem perform_rows (write : CacheWrite) :
    (m.perform write).user = m.user ∧ (m.perform write).sessions = m.sessions ∧
      (m.perform write).transaction = m.transaction ∧ (m.perform write).signed = m.signed ∧
      (m.perform write).requests = m.requests := by
  cases write <;> exact ⟨rfl, rfl, rfl, rfl, rfl⟩

theorem answer_signed {request : ρ} {reply : Option AuthReply} {token : AccessToken}
    (h : token ∈ (answer m request reply).1.signed) :
    token ∈ m.signed ∨ signs (.writing [] reply) = some (token.sid, token.tv) := by
  rcases reply with _ | reply
  · exact .inl h
  · cases reply with
    | login sid tv =>
      rcases List.mem_cons.mp h with rfl | h
      · exact .inr rfl
      · exact .inl h
    | refresh sid tv =>
      rcases List.mem_cons.mp h with rfl | h
      · exact .inr rfl
      · exact .inl h
    | resetPassword => exact .inl h
    | canActivate => exact .inl h

theorem signed_answer {request : ρ} {reply : Option AuthReply} {token : AccessToken}
    (h : token ∈ m.signed) : token ∈ (answer m request reply).1.signed := by
  rcases reply with _ | reply
  · exact h
  · cases reply with
    | login => exact List.mem_cons_of_mem _ h
    | refresh => exact List.mem_cons_of_mem _ h
    | resetPassword => exact h
    | canActivate => exact h

theorem answer_rows (m : Auth ρ) (request : ρ) (reply : Option AuthReply) :
    (answer m request reply).1.user = m.user ∧ (answer m request reply).1.sessions = m.sessions ∧
      (answer m request reply).1.transaction = m.transaction ∧
      (answer m request reply).1.tokenVersionCache = m.tokenVersionCache ∧
      (answer m request reply).1.requests = (m.set request none).requests := by
  rcases reply with _ | reply
  · exact ⟨rfl, rfl, rfl, rfl, rfl⟩
  · cases reply <;> exact ⟨rfl, rfl, rfl, rfl, rfl⟩

/-- A token is of the version its request was bound to. -/
theorem signs_bound {stage : AuthStage} {sid : SessionId} {tv : Nat}
    (h : signs stage = some (sid, tv)) : boundVersion stage = tv := by
  unfold signs at h
  split at h
  · cases h
    rfl
  · cases h
    rfl
  · cases h

theorem answer_reset {request : ρ} {reply : Option AuthReply} {tokenVersion : Nat}
    (h : AuthOutput.passwordReset tokenVersion ∈ (answer m request reply).2) :
    boundVersion (.writing [] reply) = tokenVersion := by
  rcases reply with _ | reply
  · cases List.mem_singleton.mp h
  · cases reply with
    | resetPassword =>
      cases List.mem_singleton.mp h
      rfl
    | canActivate => cases h
    | _ => cases List.mem_singleton.mp h

/-- A request comes to a stage that does not check a token. -/
theorem Dated.set_verified {events : List AuthOutput} (h : Dated events m) {request : ρ}
    {stage : AuthStage} (hstage : ∀ token cached, stage ≠ .validating token cached) :
    ∀ other token cached,
      (m.set request (some stage)).requests other = some (.validating token cached) →
        token ∈ m.signed := by
  intro other token cached hother
  rcases set_requests hother with ⟨rfl, heq⟩ | hold
  · exact absurd (Option.some.inj heq) (hstage token cached)
  · exact h.verified other token cached hold

theorem AuthMove.dated {events : List AuthOutput} (h : AuthMove m input output m')
    (hm : Dated events m) : Dated (events ++ output) m' := by
  cases h with
  | goes huntouched hrequests houtput =>
    refine ⟨?_, ?_, ?_, ?_, ?_⟩
    · intro request stage hstage
      rw [huntouched.tokenVersion]
      rcases hrequests request stage hstage with hold | hnew
      · exact hm.bound request stage hold
      · exact hnew.boundVersion_le
    · intro request token cached hstage
      rw [huntouched.signed]
      rcases hrequests request _ hstage with hold | hnew
      · exact hm.verified request token cached hold
      · exact hnew
    · rw [huntouched.signed, huntouched.tokenVersion]
      exact hm.signed
    · intro transaction htransaction
      rw [huntouched.tokenVersion]
      exact hm.raised transaction (huntouched.transaction transaction htransaction)
    · intro tokenVersion hevent
      rw [huntouched.tokenVersion]
      rcases List.mem_append.mp hevent with hevent | hevent
      · exact hm.reset tokenVersion hevent
      · exact (houtput _ hevent).elim
  | @creates _ user _ _ _ _ _ _ hstage hnew hothers hid hwrites =>
    have hbound : user.tokenVersion ≤ m.user.tokenVersion := hm.bound _ _ hstage
    refine ⟨?_, hm.set_verified nofun, hm.signed, hm.raised, ?_⟩
    · intro request stage hstage'
      rcases set_requests hstage' with ⟨rfl, heq⟩ | hold
      · cases heq
        exact hbound
      · exact hm.bound request stage hold
    · intro tokenVersion hevent
      rcases List.mem_append.mp hevent with hevent | hevent
      · exact hm.reset tokenVersion hevent
      · cases List.mem_singleton.mp hevent
  | @rotates _ user _ _ _ _ _ _ hstage hsession hsessions hwrites =>
    rw [List.append_nil]
    have hbound : user.tokenVersion ≤ m.user.tokenVersion := hm.bound _ _ hstage
    refine ⟨?_, hm.set_verified nofun, hm.signed, hm.raised, hm.reset⟩
    intro request stage hstage'
    rcases set_requests hstage' with ⟨rfl, heq⟩ | hold
    · cases heq
      exact hbound
    · exact hm.bound request stage hold
  | opens hnone =>
    rw [List.append_nil]
    refine ⟨?_, hm.set_verified nofun, hm.signed, ?_, hm.reset⟩
    · intro request stage hstage
      rcases set_requests hstage with ⟨rfl, heq⟩ | hold
      · cases heq
        exact Nat.zero_le _
      · exact hm.bound request stage hold
    · intro transaction htransaction
      cases htransaction
      rfl
  | revokes hopen =>
    rw [List.append_nil]
    refine ⟨hm.bound, hm.verified, hm.signed, ?_, hm.reset⟩
    intro transaction htransaction
    cases htransaction
    exact hm.raised ⟨_, _, none⟩ hopen
  | @commits request user revoked revokedAt writes hopen =>
    rw [List.append_nil]
    have hraised : user.tokenVersion = m.user.tokenVersion + 1 := hm.raised _ hopen
    refine ⟨?_, hm.set_verified nofun, ?_, ?_, ?_⟩
    · intro other stage hstage
      rcases set_requests hstage with ⟨rfl, heq⟩ | hold
      · cases heq
        exact Nat.le_refl _
      · have hbound := hm.bound other stage hold
        show _ ≤ user.tokenVersion
        omega
    · intro token htoken
      have hsigned := hm.signed token htoken
      show _ ≤ user.tokenVersion
      omega
    · intro transaction htransaction
      cases htransaction
    · intro tokenVersion hevent
      have hreset := hm.reset tokenVersion hevent
      show _ ≤ user.tokenVersion
      omega
  | @writes request group rest reply write hstage hmem =>
    rw [List.append_nil]
    obtain ⟨huser, _, htransaction, hsigned, hrequests⟩ := perform_rows (m := m) write
    refine ⟨?_, ?_, ?_, ?_, ?_⟩
    · intro other stage hstage'
      show _ ≤ (m.perform write).user.tokenVersion
      rw [huser]
      rcases set_requests hstage' with ⟨rfl, heq⟩ | hold
      · cases heq
        have hbound := hm.bound _ _ hstage
        cases reply with
        | none => exact Nat.zero_le _
        | some reply => cases reply <;> exact hbound
      · rw [hrequests] at hold
        exact hm.bound other stage hold
    · intro other token cached hstage'
      show token ∈ (m.perform write).signed
      rw [hsigned]
      rcases set_requests hstage' with ⟨rfl, heq⟩ | hold
      · cases heq
      · rw [hrequests] at hold
        exact hm.verified other token cached hold
    · intro token htoken
      show _ ≤ (m.perform write).user.tokenVersion
      rw [huser]
      exact hm.signed token (hsigned ▸ htoken)
    · intro transaction htransaction'
      show _ = (m.perform write).user.tokenVersion + 1
      rw [huser]
      exact hm.raised transaction (htransaction ▸ htransaction')
    · intro tokenVersion hevent
      show _ ≤ (m.perform write).user.tokenVersion
      rw [huser]
      exact hm.reset tokenVersion hevent
  | @answers request reply hstage =>
    obtain ⟨huser, _, htransaction, _, hrequests⟩ := answer_rows m request reply
    refine ⟨?_, ?_, ?_, ?_, ?_⟩
    · intro other stage hstage'
      rw [huser]
      rw [hrequests] at hstage'
      rcases set_requests hstage' with ⟨rfl, heq⟩ | hold
      · cases heq
      · exact hm.bound other stage hold
    · intro other token cached hstage'
      rw [hrequests] at hstage'
      rcases set_requests hstage' with ⟨rfl, heq⟩ | hold
      · cases heq
      · exact signed_answer (hm.verified other token cached hold)
    · intro token htoken
      rw [huser]
      rcases answer_signed htoken with hold | hsigns
      · exact hm.signed token hold
      · rw [← signs_bound hsigns]
        exact hm.bound request _ hstage
    · intro transaction htransaction'
      rw [huser]
      exact hm.raised transaction (htransaction ▸ htransaction')
    · intro tokenVersion hevent
      rw [huser]
      rcases List.mem_append.mp hevent with hevent | hevent
      · exact hm.reset tokenVersion hevent
      · rw [← answer_reset hevent]
        exact hm.bound request _ hstage

/-! ## Earlier logins -/

/-- The session belongs to a login that read this version with the password. -/
def CreatedWith (events : List AuthOutput) (sid : SessionId) (tokenVersion : Nat) : Prop :=
  ∃ user, AuthOutput.sessionCreated sid user ∈ events ∧ user.tokenVersion = tokenVersion

/-- A version that is not later than the login's. -/
def Signable (events : List AuthOutput) (sid : SessionId) (tv : Nat) : Prop :=
  ∃ tokenVersion, CreatedWith events sid tokenVersion ∧ tv ≤ tokenVersion

/-- A session that is not revoked belongs to a login with the current password; a token is never of
a later version than its login. -/
structure CutInv (events : List AuthOutput) (m : Auth ρ) : Prop where
  single : ∀ sid v v', CreatedWith events sid v → CreatedWith events sid v' → v = v'
  known : ∀ sid v, CreatedWith events sid v → sid ∈ m.sessions.map AuthSession.id
  current : ∀ session ∈ m.sessions, session.revokedAt = none →
    CreatedWith events session.id m.user.tokenVersion
  pending : ∀ transaction revoked revokedAt, m.transaction = some transaction →
    transaction.revoked = some (revoked, revokedAt) → ∀ session ∈ m.sessions,
      session.revokedAt = none → session.id ∈ revoked.map AuthSession.id
  bound : ∀ request stage sid tv, m.requests request = some stage →
    signs stage = some (sid, tv) → Signable events sid tv
  signed : ∀ token ∈ m.signed, Signable events token.sid token.tv

theorem createdWith_append (events : List AuthOutput) (sid : SessionId) (v : Nat)
    (houtput : ∀ id user, AuthOutput.sessionCreated id user ∉ output) :
    CreatedWith (events ++ output) sid v ↔ CreatedWith events sid v := by
  constructor
  · rintro ⟨user, hevent, hversion⟩
    rcases List.mem_append.mp hevent with hevent | hevent
    · exact ⟨user, hevent, hversion⟩
    · exact absurd hevent (houtput sid user)
  · rintro ⟨user, hevent, hversion⟩
    exact ⟨user, List.mem_append_left _ hevent, hversion⟩

omit [DecidableEq ρ] in
theorem CutInv.append {events : List AuthOutput} (h : CutInv events m)
    (houtput : ∀ id user, AuthOutput.sessionCreated id user ∉ output) :
    CutInv (events ++ output) m := by
  have happend := fun sid v => createdWith_append events sid v houtput
  constructor
  · intro sid v v'
    rw [happend, happend]
    exact h.single sid v v'
  · intro sid v
    rw [happend]
    exact h.known sid v
  · intro session hsession hnone
    rw [happend]
    exact h.current session hsession hnone
  · exact h.pending
  · intro request stage sid tv hstage hsigns
    obtain ⟨v, hv, hle⟩ := h.bound request stage sid tv hstage hsigns
    exact ⟨v, (happend sid v).mpr hv, hle⟩
  · intro token htoken
    obtain ⟨v, hv, hle⟩ := h.signed token htoken
    exact ⟨v, (happend _ v).mpr hv, hle⟩

omit [DecidableEq ρ] in
/-- What `CutInv` needs to know of the next state, where the same sessions are there. -/
theorem CutInv.of_narrows {events : List AuthOutput} (h : CutInv events m)
    (hversion : m'.user.tokenVersion = m.user.tokenVersion)
    (hsessions : Narrows m.sessions m'.sessions)
    (htransaction : ∀ transaction revoked revokedAt, m'.transaction = some transaction →
      transaction.revoked = some (revoked, revokedAt) → m.transaction = some transaction ∨
        ∀ session ∈ m'.sessions, session.revokedAt = none →
          session.id ∈ revoked.map AuthSession.id)
    (hbound : ∀ request stage sid tv, m'.requests request = some stage →
      signs stage = some (sid, tv) → Signable events sid tv)
    (hsigned : ∀ token ∈ m'.signed, Signable events token.sid token.tv) : CutInv events m' := by
  refine ⟨h.single, ?_, ?_, ?_, hbound, hsigned⟩
  · intro sid v hv
    rw [hsessions.ids]
    exact h.known sid v hv
  · intro session hsession hnone
    obtain ⟨before, hbefore, hid, hbeforeNone⟩ := hsessions.unrevoked session hsession hnone
    rw [← hid, hversion]
    exact h.current before hbefore hbeforeNone
  · intro transaction revoked revokedAt hopen hrevoked session hsession hnone
    rcases htransaction transaction revoked revokedAt hopen hrevoked with hold | hnew
    · obtain ⟨before, hbefore, hid, hbeforeNone⟩ := hsessions.unrevoked session hsession hnone
      rw [← hid]
      exact h.pending transaction revoked revokedAt hold hrevoked before hbefore hbeforeNone
    · exact hnew session hsession hnone

/-- The session of a login with the current password. -/
theorem CutInv.creates {events : List AuthOutput} {request : ρ} {user : AuthUser}
    {others : List AuthSession} {session : AuthSession} {writes : List (List CacheWrite)}
    (h : CutInv events m) (hnew : session.id ∉ m.sessions.map AuthSession.id)
    (hothers : Narrows m.sessions others) (hcurrent : user.tokenVersion = m.user.tokenVersion)
    (hrevoked : ∀ transaction, m.transaction = some transaction → transaction.revoked = none) :
    CutInv (events ++ [.sessionCreated session.id user])
      (({ m with sessions := others ++ [session] }).set request
        (some (.writing writes (some (.login session.id user.tokenVersion))))) := by
  have hold : ∀ sid v, CreatedWith events sid v →
      CreatedWith (events ++ [.sessionCreated session.id user]) sid v := by
    rintro sid v ⟨row, hevent, hversion⟩
    exact ⟨row, List.mem_append_left _ hevent, hversion⟩
  have hlast : CreatedWith (events ++ [.sessionCreated session.id user]) session.id
      user.tokenVersion :=
    ⟨user, List.mem_append_right _ (List.mem_singleton.mpr rfl), rfl⟩
  have hcases : ∀ sid v, CreatedWith (events ++ [.sessionCreated session.id user]) sid v →
      CreatedWith events sid v ∨ sid = session.id ∧ v = user.tokenVersion := by
    rintro sid v ⟨row, hevent, hversion⟩
    rcases List.mem_append.mp hevent with hevent | hevent
    · exact .inl ⟨row, hevent, hversion⟩
    · cases List.mem_singleton.mp hevent
      exact .inr ⟨rfl, hversion.symm⟩
  have hsignable : ∀ sid tv, Signable events sid tv →
      Signable (events ++ [.sessionCreated session.id user]) sid tv := by
    rintro sid tv ⟨v, hv, hle⟩
    exact ⟨v, hold sid v hv, hle⟩
  refine ⟨?_, ?_, ?_, ?_, ?_, fun token htoken => hsignable _ _ (h.signed token htoken)⟩
  · intro sid v v' hv hv'
    rcases hcases sid v hv with hv | ⟨rfl, rfl⟩
    · rcases hcases sid v' hv' with hv' | ⟨rfl, rfl⟩
      · exact h.single sid v v' hv hv'
      · exact absurd (h.known _ v hv) hnew
    · rcases hcases _ v' hv' with hv' | ⟨_, rfl⟩
      · exact absurd (h.known _ v' hv') hnew
      · rfl
  · intro sid v hv
    show sid ∈ (others ++ [session]).map AuthSession.id
    rw [List.map_append, hothers.ids]
    rcases hcases sid v hv with hv | ⟨rfl, _⟩
    · exact List.mem_append_left _ (h.known sid v hv)
    · exact List.mem_append_right _ (List.mem_singleton.mpr rfl)
  · intro other hother hnone
    rcases List.mem_append.mp hother with hother | hother
    · obtain ⟨before, hbefore, hid, hbeforeNone⟩ := hothers.unrevoked other hother hnone
      rw [← hid]
      exact hold _ _ (h.current before hbefore hbeforeNone)
    · cases List.mem_singleton.mp hother
      show CreatedWith _ session.id m.user.tokenVersion
      rw [← hcurrent]
      exact hlast
  · intro transaction revoked revokedAt hopen hsome
    rw [hrevoked transaction hopen] at hsome
    cases hsome
  · intro other stage sid tv hstage hsigns
    rcases set_requests hstage with ⟨rfl, heq⟩ | hbefore
    · cases heq
      cases hsigns
      exact ⟨user.tokenVersion, hlast, Nat.le_refl _⟩
    · exact hsignable _ _ (h.bound other stage sid tv hbefore hsigns)

/-- The commit of a reset leaves no session that is not revoked. -/
theorem CutInv.commits {events : List AuthOutput} {request : ρ} {user : AuthUser}
    {revoked : List AuthSession} {revokedAt : Nat} {writes : List (List CacheWrite)}
    (h : CutInv events m)
    (hopen : m.transaction = some ⟨request, user, some (revoked, revokedAt)⟩) :
    CutInv events (({ m with
      user, transaction := none
      sessions := AuthRepository.revokeUserSessions m.sessions revoked revokedAt }).set request
        (some (.writing writes (some (.resetPassword user.tokenVersion))))) := by
  have hnarrows := revokeUserSessions_narrows m.sessions revoked revokedAt
  have hall : ∀ session ∈ AuthRepository.revokeUserSessions m.sessions revoked revokedAt,
      session.revokedAt ≠ none := by
    intro session hsession hnone
    obtain ⟨before, hbefore, rfl⟩ := List.mem_map.mp hsession
    have hbeforeNone : before.revokedAt = none := by
      split at hnone
      · cases hnone
      · exact hnone
    rw [if_pos (h.pending _ revoked revokedAt hopen rfl before hbefore hbeforeNone)] at hnone
    cases hnone
  refine ⟨h.single, ?_, ?_, ?_, ?_, h.signed⟩
  · intro sid v hv
    show sid ∈ (AuthRepository.revokeUserSessions m.sessions revoked revokedAt).map AuthSession.id
    rw [hnarrows.ids]
    exact h.known sid v hv
  · intro session hsession hnone
    exact absurd hnone (hall session hsession)
  · intro transaction _ _ htransaction
    cases htransaction
  · intro other stage sid tv hstage hsigns
    rcases set_requests hstage with ⟨rfl, heq⟩ | hbefore
    · cases heq
      cases hsigns
    · exact h.bound other stage sid tv hbefore hsigns

theorem AuthMove.cutInv {events : List AuthOutput} (h : AuthMove m input output m')
    (hd : Dated events m) (hm : CutInv events m) (hguard : CreatesCurrent m input) :
    CutInv (events ++ output) m' := by
  cases h with
  | goes huntouched hrequests houtput =>
    refine (hm.append fun id user hevent => houtput _ hevent).of_narrows huntouched.tokenVersion
      (huntouched.sessions ▸ .refl _) ?_ ?_ ?_
    · intro transaction _ _ hopen _
      exact .inl (huntouched.transaction transaction hopen)
    · intro request stage sid tv hstage hsigns
      rcases hrequests request stage hstage with hold | hnew
      · exact (hm.append fun id user hevent => houtput _ hevent).bound request stage sid tv hold
          hsigns
      · rw [hnew.signs_eq] at hsigns
        cases hsigns
    · rw [huntouched.signed]
      exact (hm.append fun id user hevent => houtput _ hevent).signed
  | creates hstage hnew hothers hid hwrites =>
    subst hid
    obtain ⟨hcurrent, hrevoked⟩ := hguard _ _ hstage
    exact hm.creates hnew hothers hcurrent hrevoked
  | @rotates request user sessionId _ _ _ sessions _ hstage hsession hsessions hwrites =>
    rw [List.append_nil]
    refine hm.of_narrows rfl hsessions (fun _ _ _ hopen _ => .inl hopen) ?_ hm.signed
    intro other stage sid tv hstage' hsigns
    rcases set_requests hstage' with ⟨rfl, heq⟩ | hold
    · cases heq
      cases hsigns
      -- the session is not revoked, so its login has read the current version
      obtain ⟨session, hmem, rfl, hnone⟩ := hsession
      exact ⟨m.user.tokenVersion, hm.current session hmem hnone, hd.bound _ _ hstage⟩
    · exact hm.bound other stage sid tv hold hsigns
  | opens hnone =>
    rw [List.append_nil]
    refine hm.of_narrows rfl (.refl _) ?_ ?_ hm.signed
    · intro transaction _ _ hopen hsome
      cases hopen
      cases hsome
    · intro other stage sid tv hstage hsigns
      rcases set_requests hstage with ⟨rfl, heq⟩ | hold
      · cases heq
        cases hsigns
      · exact hm.bound other stage sid tv hold hsigns
  | revokes hopen =>
    rw [List.append_nil]
    refine hm.of_narrows rfl (.refl _) ?_ hm.bound hm.signed
    intro transaction revoked revokedAt htransaction hsome
    right
    intro session hsession hnone
    cases htransaction
    cases hsome
    refine List.mem_map_of_mem (List.mem_filter.mpr ⟨hsession, ?_⟩)
    rw [hnone]
    rfl
  | commits hopen =>
    rw [List.append_nil]
    exact hm.commits hopen
  | @writes request group rest reply write hstage hmem =>
    rw [List.append_nil]
    obtain ⟨huser, hsessions, htransaction, hsigned, hrequests⟩ := perform_rows (m := m) write
    refine hm.of_narrows (congrArg AuthUser.tokenVersion huser) ?_ ?_ ?_ ?_
    · show Narrows m.sessions (m.perform write).sessions
      rw [hsessions]
      exact .refl _
    · intro transaction _ _ hopen _
      exact .inl (htransaction ▸ hopen)
    · intro other stage sid tv hstage' hsigns
      rcases set_requests hstage' with ⟨rfl, heq⟩ | hold
      · cases heq
        refine hm.bound other _ sid tv hstage ?_
        cases reply with
        | none => cases hsigns
        | some reply => cases reply <;> exact hsigns
      · rw [hrequests] at hold
        exact hm.bound other stage sid tv hold hsigns
    · intro token htoken
      exact hm.signed token (hsigned ▸ htoken)
  | @answers request reply hstage =>
    obtain ⟨huser, hsessions, htransaction, _, hrequests⟩ := answer_rows m request reply
    have hkeep : CutInv (events ++ (answer m request reply).2) m := hm.append fun id user hevent => by
      rcases reply with _ | reply
      · cases List.mem_singleton.mp hevent
      · cases reply with
        | canActivate => cases hevent
        | _ => cases List.mem_singleton.mp hevent
    refine hkeep.of_narrows (congrArg AuthUser.tokenVersion huser) (hsessions ▸ .refl _) ?_ ?_ ?_
    · intro transaction _ _ hopen _
      exact .inl (htransaction ▸ hopen)
    · intro other stage sid tv hstage' hsigns
      rw [hrequests] at hstage'
      rcases set_requests hstage' with ⟨rfl, heq⟩ | hold
      · cases heq
      · exact hkeep.bound other stage sid tv hold hsigns
    · intro token htoken
      rcases answer_signed htoken with hold | hsigns
      · exact hkeep.signed token hold
      · exact hkeep.bound request _ _ _ hstage hsigns

/-! ## The cached version -/

/-- The cached version is not ahead of the row, and no token that was signed is ahead of it; nor is
one that is going to be, once its own version has been written. -/
structure CacheInv (m : Auth ρ) : Prop where
  cached : ∀ entry, m.tokenVersionCache = some entry → entry.value ≤ m.user.tokenVersion
  signed : ∀ token ∈ m.signed, ∀ entry, m.tokenVersionCache = some entry → token.tv ≤ entry.value
  written : ∀ request writes reply sid tv, m.requests request = some (.writing writes reply) →
    signs (.writing writes reply) = some (sid, tv) →
      CacheWrite.setTokenVersion tv ∈ writes.flatten ∨
        ∀ entry, m.tokenVersionCache = some entry → tv ≤ entry.value

theorem mem_remainingWrites {group : List CacheWrite} {rest : List (List CacheWrite)}
    {write other : CacheWrite} (hmem : other ∈ (group :: rest).flatten) (hne : other ≠ write) :
    other ∈ (remainingWrites group rest write).flatten := by
  rw [List.flatten_cons, List.mem_append] at hmem
  unfold remainingWrites
  have herase : other ∈ group → other ∈ group.erase write :=
    fun h => (List.mem_erase_of_ne hne).mpr h
  split
  · rename_i hnil
    rcases hmem with hmem | hmem
    · have hlast := herase hmem
      rw [hnil] at hlast
      cases hlast
    · exact hmem
  · rcases hmem with hmem | hmem
    · exact List.mem_append_left _ (herase hmem)
    · exact List.mem_append_right _ hmem

omit [DecidableEq ρ] in
theorem perform_cache (write : CacheWrite) :
    (∃ tokenVersion, write = .setTokenVersion tokenVersion) ∨
      (∀ tokenVersion, write ≠ .setTokenVersion tokenVersion) ∧
        (m.perform write).tokenVersionCache = m.tokenVersionCache := by
  cases write with
  | setTokenVersion tokenVersion => exact .inl ⟨tokenVersion, rfl⟩
  | _ => exact .inr ⟨fun _ => nofun, rfl⟩

omit [DecidableEq ρ] in
theorem CacheInv.of_cache (h : CacheInv m) (hversion : m.user.tokenVersion ≤ m'.user.tokenVersion)
    (hcache : m'.tokenVersionCache = m.tokenVersionCache)
    (hsigned : ∀ token ∈ m'.signed, ∀ entry, m.tokenVersionCache = some entry →
      token.tv ≤ entry.value)
    (hwritten : ∀ request writes reply sid tv, m'.requests request = some (.writing writes reply) →
      signs (.writing writes reply) = some (sid, tv) →
        CacheWrite.setTokenVersion tv ∈ writes.flatten ∨
          ∀ entry, m.tokenVersionCache = some entry → tv ≤ entry.value) : CacheInv m' := by
  refine ⟨?_, ?_, ?_⟩
  · intro entry hentry
    rw [hcache] at hentry
    exact (h.cached entry hentry).trans hversion
  · rw [hcache]
    exact hsigned
  · rw [hcache]
    exact hwritten

/-- Where the row's version is written to the cache. -/
theorem Dated.cacheInv_of_written {events : List AuthOutput} {request : ρ}
    {group : List CacheWrite} {rest : List (List CacheWrite)} {reply : Option AuthReply}
    (hd : Dated events m)
    (hstage : m.requests request = some (.writing (group :: rest) reply)) :
    CacheInv ((m.perform (.setTokenVersion m.user.tokenVersion)).set request (some (.writing
      (remainingWrites group rest (.setTokenVersion m.user.tokenVersion)) reply))) := by
  refine ⟨?_, ?_, ?_⟩
  · intro entry hentry
    cases hentry
    exact Nat.le_refl _
  · intro token htoken entry hentry
    cases hentry
    exact hd.signed token htoken
  · intro other writes reply' sid tv hstage' hsigns
    right
    intro entry hentry
    cases hentry
    rw [← signs_bound hsigns]
    rcases set_requests hstage' with ⟨rfl, heq⟩ | hold
    · cases heq
      have hsame : boundVersion (.writing (remainingWrites group rest
          (.setTokenVersion m.user.tokenVersion)) reply) =
            boundVersion (.writing (group :: rest) reply) := by
        cases reply with
        | none => rfl
        | some reply => cases reply <;> rfl
      rw [hsame]
      exact hd.bound other _ hstage
    · exact hd.bound other _ hold

theorem CacheInv.set_written (h : CacheInv m) {request : ρ} {stage : AuthStage}
    (hstage : ∀ writes reply sid tv, stage = .writing writes reply →
      signs (.writing writes reply) = some (sid, tv) →
        CacheWrite.setTokenVersion tv ∈ writes.flatten ∨
          ∀ entry, m.tokenVersionCache = some entry → tv ≤ entry.value) :
    ∀ other writes reply sid tv,
      (m.set request (some stage)).requests other = some (.writing writes reply) →
      signs (.writing writes reply) = some (sid, tv) →
        CacheWrite.setTokenVersion tv ∈ writes.flatten ∨
          ∀ entry, m.tokenVersionCache = some entry → tv ≤ entry.value := by
  intro other writes reply sid tv hother hsigns
  rcases set_requests hother with ⟨rfl, heq⟩ | hold
  · exact hstage writes reply sid tv (Option.some.inj heq) hsigns
  · exact h.written other writes reply sid tv hold hsigns

theorem AuthMove.cacheInv {events : List AuthOutput} (h : AuthMove m input output m')
    (hd : Dated events m) (hm : CacheInv m) (hguard : CachesCurrent m input) : CacheInv m' := by
  cases h with
  | goes huntouched hrequests houtput =>
    refine hm.of_cache (Nat.le_of_eq huntouched.tokenVersion.symm) huntouched.tokenVersionCache
      (huntouched.signed ▸ hm.signed) ?_
    intro request writes reply sid tv hstage hsigns
    rcases hrequests request _ hstage with hold | hnew
    · exact hm.written request writes reply sid tv hold hsigns
    · rw [hnew.signs_eq] at hsigns
      cases hsigns
  | creates hstage hnew hothers hid hwrites =>
    refine hm.of_cache (Nat.le_refl _) rfl hm.signed (hm.set_written ?_)
    intro writes reply sid tv heq hsigns
    cases heq
    cases hsigns
    exact .inl hwrites
  | rotates hstage hsession hsessions hwrites =>
    refine hm.of_cache (Nat.le_refl _) rfl hm.signed (hm.set_written ?_)
    intro writes reply sid tv heq hsigns
    cases heq
    cases hsigns
    exact .inl hwrites
  | opens hnone =>
    refine hm.of_cache (Nat.le_refl _) rfl hm.signed (hm.set_written ?_)
    intro writes reply sid tv heq
    cases heq
  | revokes hopen => exact hm.of_cache (Nat.le_refl _) rfl hm.signed hm.written
  | commits hopen =>
    have hraised := hd.raised _ hopen
    refine hm.of_cache ?_ rfl hm.signed (hm.set_written ?_)
    · exact Nat.le_of_lt (Nat.lt_of_lt_of_eq (Nat.lt_succ_self _) hraised.symm)
    · intro writes reply sid tv heq hsigns
      cases heq
      cases hsigns
  | @writes request group rest reply write hstage hmem =>
    rcases perform_cache (m := m) write with ⟨tokenVersion, rfl⟩ | ⟨hother, hsame⟩
    · cases hguard
      exact hd.cacheInv_of_written hstage
    · obtain ⟨huser, _, _, hsigned, hrequests⟩ := perform_rows (m := m) write
      refine hm.of_cache (Nat.le_of_eq (congrArg AuthUser.tokenVersion huser).symm) hsame ?_ ?_
      · intro token htoken
        exact hm.signed token (hsigned ▸ htoken)
      · intro other writes reply' sid tv hstage' hsigns
        rcases set_requests hstage' with ⟨rfl, heq⟩ | hold
        · cases heq
          have hbefore : signs (.writing (group :: rest) reply) = some (sid, tv) := by
            cases reply with
            | none => cases hsigns
            | some reply => cases reply <;> exact hsigns
          refine (hm.written other _ _ sid tv hstage hbefore).imp_left fun hin => ?_
          exact mem_remainingWrites hin (hother tv).symm
        · rw [hrequests] at hold
          exact hm.written other writes reply' sid tv hold hsigns
  | @answers request reply hstage =>
    obtain ⟨huser, _, _, hcache, hrequests⟩ := answer_rows m request reply
    refine hm.of_cache (Nat.le_of_eq (congrArg AuthUser.tokenVersion huser).symm) hcache ?_ ?_
    · intro token htoken
      rcases answer_signed htoken with hold | hsigns
      · exact hm.signed token hold
      · rcases hm.written request [] reply _ _ hstage hsigns with hleft | hwritten
        · cases hleft
        · exact hwritten
    · intro other writes reply' sid tv hstage' hsigns
      rw [hrequests] at hstage'
      rcases set_requests hstage' with ⟨rfl, heq⟩ | hold
      · cases heq
      · exact hm.written other writes reply' sid tv hold hsigns

end Steps

/-! ## Whole runs -/

section Runs

variable [DecidableEq ρ] {verifyPassword : String → String → Bool} {m m' : Auth ρ}
  {inputs : List (AuthInput ρ)} {input : AuthInput ρ} {events output : List AuthOutput}
  {user : AuthUser} {now : Nat}

omit [DecidableEq ρ] in
theorem registered_dated (user : AuthUser) (now : Nat) :
    Dated [] (registered user now : Auth ρ) where
  bound := fun _ _ hstage => by cases hstage
  verified := fun _ _ _ hstage => by cases hstage
  signed := List.forall_mem_nil _
  raised := fun _ htransaction => by cases htransaction
  reset := fun _ hevent => by cases hevent

omit [DecidableEq ρ] in
theorem registered_cutInv (user : AuthUser) (now : Nat) :
    CutInv [] (registered user now : Auth ρ) where
  single := by
    rintro sid v v' ⟨_, hevent, _⟩
    cases hevent
  known := by
    rintro sid v ⟨_, hevent, _⟩
    cases hevent
  current := List.forall_mem_nil _
  pending := fun _ _ _ htransaction => by cases htransaction
  bound := fun _ _ _ _ hstage => by cases hstage
  signed := List.forall_mem_nil _

omit [DecidableEq ρ] in
theorem registered_cacheInv (user : AuthUser) (now : Nat) :
    CacheInv (registered user now : Auth ρ) where
  cached := fun _ hentry => by cases hentry
  signed := List.forall_mem_nil _
  written := fun _ _ _ _ _ hstage => by cases hstage

theorem run_dated (h : Run (AuthSteps verifyPassword) (registered user now) inputs events m) :
    Dated events m := by
  induction h with
  | refl => exact registered_dated user now
  | tail _ hs ih => exact (authStep_move hs).dated ih

theorem run_cutInv
    (h : Run (Guarded (AuthSteps verifyPassword) CreatesCurrent) (registered user now) inputs
      events m) : CutInv events m := by
  induction h with
  | refl => exact registered_cutInv user now
  | tail hrun hs ih =>
    exact (authStep_move hs.1).cutInv (run_dated hrun.unguarded) ih hs.2

theorem run_cacheInv
    (h : Run (Guarded (AuthSteps verifyPassword) CachesCurrent) (registered user now) inputs
      events m) : CacheInv m := by
  induction h with
  | refl => exact registered_cacheInv user now
  | tail hrun hs ih =>
    exact (authStep_move hs.1).cacheInv (run_dated hrun.unguarded) ih hs.2

/-- A verdict is what the row says or what the cache says. -/
theorem AuthMove.verdict {token : AccessToken} {accepted : Bool}
    (h : AuthMove m input output m') (hverdict : .verdict token accepted ∈ output) :
    PlainOutput m (.verdict token accepted) := by
  cases h with
  | goes _ _ houtput => exact houtput _ hverdict
  | creates => cases List.mem_singleton.mp hverdict
  | @answers request reply _ =>
    rcases reply with _ | reply
    · cases List.mem_singleton.mp hverdict
    · cases reply with
      | canActivate => cases hverdict
      | _ => cases List.mem_singleton.mp hverdict
  | _ => cases hverdict

theorem validUser_version {tv : Nat} (h : AuthGuard.validUser user tv = true) :
    user.tokenVersion = tv := by
  unfold AuthGuard.validUser at h
  rw [Bool.and_eq_true] at h
  exact of_decide_eq_true h.2

theorem rotateSessionRefreshToken_revoked {sessions : List AuthSession} {sid : SessionId}
    (h : ∀ session ∈ sessions, session.id = sid → session.revokedAt ≠ none)
    (current next : String) (expiresAt now : Nat) :
    AuthRepository.rotateSessionRefreshToken sessions sid current next expiresAt now = none := by
  cases hrotate : AuthRepository.rotateSessionRefreshToken sessions sid current next expiresAt
    now with
  | none => rfl
  | some sessions' =>
    obtain ⟨⟨session, hsession, hid, hnone⟩, _⟩ := rotateSessionRefreshToken_eq_some hrotate
    exact absurd hnone (h session hsession hid)

/-- Once a reset has answered, the session of a login that read an earlier version with the
password is not rotated any more, and the guard accepts none of its tokens, where every login
creates its session while the version it has read is current. -/
theorem resetPassword_cutsOff (verifyPassword : String → String → Bool) (user : AuthUser)
    (now : Nat) : ∀ inputs events (m : Auth ρ),
      Run (Guarded (AuthSteps verifyPassword) CreatesCurrent) (registered user now) inputs events
        m →
      ∀ tokenVersion sid checked, .passwordReset tokenVersion ∈ events →
        .sessionCreated sid checked ∈ events → checked.tokenVersion < tokenVersion →
        (∀ current next expiresAt at', AuthRepository.rotateSessionRefreshToken m.sessions sid
          current next expiresAt at' = none) ∧
        (∀ token ∈ m.signed, token.sid = sid → AuthGuard.validUser m.user token.tv = false) ∧
        ∀ input output m', AuthSteps verifyPassword m input output m' →
          ∀ token, token.sid = sid → .verdict token true ∉ output := by
  intro inputs events m hrun tokenVersion sid checked hreset hcreated hearlier
  have hdated := run_dated hrun.unguarded
  have hcut := run_cutInv hrun
  have hlogin : CreatedWith events sid checked.tokenVersion := ⟨checked, hcreated, rfl⟩
  have hbehind : checked.tokenVersion < m.user.tokenVersion :=
    Nat.lt_of_lt_of_le hearlier (hdated.reset tokenVersion hreset)
  have hrevoked : ∀ session ∈ m.sessions, session.id = sid → session.revokedAt ≠ none := by
    rintro session hsession rfl hnone
    have hsame := hcut.single _ _ _ hlogin (hcut.current session hsession hnone)
    omega
  have hsigned : ∀ token ∈ m.signed, token.sid = sid →
      AuthGuard.validUser m.user token.tv = false := by
    rintro token htoken rfl
    obtain ⟨v, hv, hle⟩ := hcut.signed token htoken
    cases hvalid : AuthGuard.validUser m.user token.tv with
    | false => rfl
    | true =>
      have hversion := validUser_version hvalid
      have hsame := hcut.single _ _ _ hlogin hv
      omega
  refine ⟨rotateSessionRefreshToken_revoked hrevoked, hsigned, ?_⟩
  intro input output m' hstep token htoken hverdict
  rcases (authStep_move hstep).verdict hverdict with ⟨hvalid, request, cached, hstage⟩ | hfast
  · rw [hsigned token (hdated.verified request token cached hstage) htoken] at hvalid
    cases hvalid
  · cases hfast.1

instance (m : Auth ρ) : ∀ input, Decidable (CreatesCurrent m input)
  | .createSession request _ _ => decidable_of_iff ((m.requests request).all fun
      | .signingIn user _ => decide (user.tokenVersion = m.user.tokenVersion) &&
          m.transaction.all fun transaction => transaction.revoked.isNone
      | _ => true) (by
      simp only [CreatesCurrent]
      cases m.requests request with
      | none => simp
      | some stage => cases stage <;> simp [Option.all_eq_true])
  | .pass _ | .markEmailVerified | .login _ _ | .refresh _ _ | .findSession _ | .findUser _
  | .rotate _ _ | .resetPassword _ _ _ | .updatePassword _ | .revokeUserSessions _ | .commit _
  | .canActivate _ _ | .write _ _ | .writeFails _ _ | .reply _ | .abort _ =>
    inferInstanceAs (Decidable True)

instance (m : Auth ρ) : ∀ input, Decidable (CachesCurrent m input)
  | .write _ (.setTokenVersion tokenVersion) =>
    inferInstanceAs (Decidable (tokenVersion = m.user.tokenVersion))
  | .write _ (.storeSession _) | .write _ (.deleteSession _) | .write _ .deletePasswordResetOtp
  | .createSession _ _ _ | .pass _ | .markEmailVerified | .login _ _ | .refresh _ _
  | .findSession _ | .findUser _ | .rotate _ _ | .resetPassword _ _ _ | .updatePassword _
  | .revokeUserSessions _ | .commit _ | .canActivate _ _ | .writeFails _ _ | .reply _
  | .abort _ => inferInstanceAs (Decidable True)

/-- A user with a password, which is its own hash. -/
def alice : AuthUser := ⟨some "old", 0, true, .active, none⟩

/-- A password is its own hash. -/
def samePassword (passwordHash password : String) : Bool := passwordHash = password

/-- A reset, from the one-time password to the cache. -/
def resets (request : Nat) (passwordHash : String) (tokenVersion : Nat)
    (deleted : List String) : List (AuthInput Nat) :=
  [.resetPassword request true passwordHash, .updatePassword request, .revokeUserSessions request,
    .commit request, .write request .deletePasswordResetOtp,
    .write request (.setTokenVersion tokenVersion)] ++
  deleted.map (fun hash => .write request (.deleteSession hash)) ++ [.reply request]

/-- A login, from the password to the token. -/
def logsIn (request : Nat) (password : String) (id : SessionId) (refreshTokenHash : String)
    (tokenVersion : Nat) : List (AuthInput Nat) :=
  [.login request password, .createSession request id refreshTokenHash,
    .write request (.storeSession ⟨id, refreshTokenHash, 604800000⟩),
    .write request (.setTokenVersion tokenVersion), .reply request]

/-- A login and then a reset. -/
def loginThenReset : List (AuthInput Nat) :=
  logsIn 1 "old" ⟨0⟩ "token" 0 ++ resets 2 "new" 1 ["token"]

/-- The session of the login is not rotated and its token not accepted after the reset. -/
theorem loginThenReset_cutsOff : ∃ (events : List AuthOutput) (m : Auth Nat),
    Run (AuthSteps samePassword) (registered alice 0) loginThenReset events m ∧
      .passwordReset 1 ∈ events ∧ .loggedIn ⟨⟨0⟩, 0, 900⟩ ∈ events ∧
      AuthRepository.rotateSessionRefreshToken m.sessions ⟨0⟩ "token" "next" 604800000 m.now =
        none ∧
      ∀ input output m', AuthSteps samePassword m input output m' →
        .verdict ⟨⟨0⟩, 0, 900⟩ true ∉ output := by
  obtain ⟨⟨m, events⟩, hplay, htest⟩ := (Option.any_eq_true _ _).mp (by decide +kernel :
    ((Trace.play (fun s i => if CreatesCurrent s i then authStep samePassword s i else none)
      (registered alice 0) loginThenReset).any fun last =>
        .passwordReset 1 ∈ last.2 ∧ .loggedIn ⟨⟨0⟩, 0, 900⟩ ∈ last.2 ∧
          .sessionCreated ⟨0⟩ alice ∈ last.2) = true)
  obtain ⟨hreset, hlogin, hcreated⟩ := of_decide_eq_true htest
  have hrun := Trace.play_guarded hplay
  obtain ⟨hrotate, _, hverdict⟩ := resetPassword_cutsOff samePassword alice 0 _ _ m hrun 1 ⟨0⟩ alice
    hreset hcreated (by decide)
  exact ⟨events, m, hrun.unguarded, hreset, hlogin, hrotate _ _ _ _,
    fun input output m' hstep => hverdict input output m' hstep _ rfl⟩

/-- A login checks the old password and creates its session when the reset has answered. -/
def lateLogin : List (AuthInput Nat) :=
  [.login 1 "old"] ++ resets 2 "new" 1 [] ++ [.createSession 1 ⟨0⟩ "token"]

/-- The session is refreshed and its token checked. -/
def refreshThenCheck : List (AuthInput Nat) :=
  [.refresh 3 "token", .findSession 3, .findUser 3, .rotate 3 "next",
    .write 3 (.deleteSession "token"), .write 3 (.storeSession ⟨⟨0⟩, "next", 604800000⟩),
    .write 3 (.setTokenVersion 1), .reply 3, .canActivate 4 ⟨⟨0⟩, 1, 900⟩, .findUser 4]

/-- The session of a login with the old password is refreshed, and the guard accepts its token. -/
theorem lateLogin_refreshed : ∃ (events events' : List AuthOutput) (m m' : Auth Nat),
    Run (AuthSteps samePassword) (registered alice 0) lateLogin events m ∧
      .passwordReset 1 ∈ events ∧ .sessionCreated ⟨0⟩ alice ∈ events ∧ alice.tokenVersion < 1 ∧
      Run (AuthSteps samePassword) m refreshThenCheck events' m' ∧
      .refreshed ⟨⟨0⟩, 1, 900⟩ ∈ events' ∧ .verdict ⟨⟨0⟩, 1, 900⟩ true ∈ events' := by
  obtain ⟨⟨m, events⟩, hplay, htest⟩ := (Option.any_eq_true _ _).mp (by decide +kernel :
    ((Trace.play (authStep samePassword) (registered alice 0) lateLogin).any fun last =>
      .passwordReset 1 ∈ last.2 ∧ .sessionCreated ⟨0⟩ alice ∈ last.2 ∧
        (Trace.play (authStep samePassword) last.1 refreshThenCheck).any fun next =>
          .refreshed ⟨⟨0⟩, 1, 900⟩ ∈ next.2 ∧ .verdict ⟨⟨0⟩, 1, 900⟩ true ∈ next.2) = true)
  obtain ⟨hreset, hcreated, hnext⟩ := of_decide_eq_true htest
  obtain ⟨⟨m', events'⟩, hplay', htest'⟩ := (Option.any_eq_true _ _).mp hnext
  obtain ⟨hrefreshed, hverdict⟩ := of_decide_eq_true htest'
  exact ⟨events, events', m, m', Trace.play_run hplay, hreset, hcreated, by decide, Trace.play_run hplay',
    hrefreshed, hverdict⟩

/-- The guard's verdict on a token is what the user's row says when the verdict falls, where every
version that is written to the cache is the one of the row. -/
theorem canActivate_exact (verifyPassword : String → String → Bool) (user : AuthUser)
    (now : Nat) : ∀ inputs events (m : Auth ρ),
      Run (Guarded (AuthSteps verifyPassword) CachesCurrent) (registered user now) inputs events
        m →
      ∀ input output m', AuthSteps verifyPassword m input output m' →
        ∀ token accepted, .verdict token accepted ∈ output →
          accepted = AuthGuard.validUser m.user token.tv := by
  intro inputs events m hrun input output m' hstep token accepted hverdict
  have hcache := run_cacheInv hrun
  rcases (authStep_move hstep).verdict hverdict with ⟨hvalid, _⟩ | ⟨rfl, htoken, cached, hget, hne⟩
  · exact hvalid
  · cases hvalid : AuthGuard.validUser m.user token.tv with
    | false => rfl
    | true =>
      have hversion := validUser_version hvalid
      obtain ⟨entry, hentry, rfl⟩ := Option.map_eq_some_iff.mp hget
      have hentry' := (Option.filter_eq_some_iff.mp hentry).1
      have hsigned := hcache.signed token (verifyToken_signed htoken) entry hentry'
      have hcached := hcache.cached entry hentry'
      omega

/-- A login before a reset and one after it, whose token goes to the guard. -/
def loginsAroundReset : List (AuthInput Nat) :=
  logsIn 1 "old" ⟨0⟩ "token" 0 ++ resets 2 "new" 1 ["token"] ++
    logsIn 3 "new" ⟨1⟩ "another" 1 ++ [.canActivate 4 ⟨⟨1⟩, 1, 900⟩]

/-- The guard does not reject the token of the later login, nor accept that of the earlier one. -/
theorem login_accepted : ∃ (events : List AuthOutput) (m : Auth Nat),
    Run (Guarded (AuthSteps samePassword) CachesCurrent) (registered alice 0) loginsAroundReset
      events m ∧
    .passwordReset 1 ∈ events ∧ .loggedIn ⟨⟨0⟩, 0, 900⟩ ∈ events ∧
    .loggedIn ⟨⟨1⟩, 1, 900⟩ ∈ events ∧
    (∀ output m', AuthSteps samePassword m (.findUser 4) output m' →
      .verdict ⟨⟨1⟩, 1, 900⟩ false ∉ output) ∧
    ∀ output m', AuthSteps samePassword m (.canActivate 5 ⟨⟨0⟩, 0, 900⟩) output m' →
      .verdict ⟨⟨0⟩, 0, 900⟩ true ∉ output := by
  obtain ⟨⟨m, events⟩, hplay, htest⟩ := (Option.any_eq_true _ _).mp (by decide +kernel :
    ((Trace.play (fun s i => if CachesCurrent s i then authStep samePassword s i else none)
      (registered alice 0) loginsAroundReset).any fun last =>
        .passwordReset 1 ∈ last.2 ∧ .loggedIn ⟨⟨0⟩, 0, 900⟩ ∈ last.2 ∧
          .loggedIn ⟨⟨1⟩, 1, 900⟩ ∈ last.2 ∧ AuthGuard.validUser last.1.user 1 = true ∧
          AuthGuard.validUser last.1.user 0 = false) = true)
  obtain ⟨hreset, hold, hnew, hvalid, hinvalid⟩ := of_decide_eq_true htest
  have hrun := Trace.play_guarded hplay
  refine ⟨events, m, hrun, hreset, hold, hnew, ?_, ?_⟩
  · intro output m' hstep hverdict
    have hexact := canActivate_exact samePassword alice 0 _ _ m hrun _ _ _ hstep _ _ hverdict
    rw [hvalid] at hexact
    cases hexact
  · intro output m' hstep hverdict
    have hexact := canActivate_exact samePassword alice 0 _ _ m hrun _ _ _ hstep _ _ hverdict
    rw [hinvalid] at hexact
    cases hexact

/-- A login has not yet written the version it has read when a reset and another login are through. -/
def lateWrite : List (AuthInput Nat) :=
  [.login 1 "old", .createSession 1 ⟨0⟩ "token"] ++ resets 2 "new" 1 ["token"] ++
    logsIn 3 "new" ⟨1⟩ "another" 1 ++ [.write 1 (.setTokenVersion 0)]

/-- The guard rejects the token of the later login, which the user's row admits. -/
theorem lateWrite_rejects : ∃ (events output : List AuthOutput) (m m' : Auth Nat),
    Run (AuthSteps samePassword) (registered alice 0) lateWrite events m ∧
      .loggedIn ⟨⟨1⟩, 1, 900⟩ ∈ events ∧ AuthGuard.validUser m.user 1 = true ∧
      AuthSteps samePassword m (.canActivate 4 ⟨⟨1⟩, 1, 900⟩) output m' ∧
      .verdict ⟨⟨1⟩, 1, 900⟩ false ∈ output := by
  obtain ⟨⟨m, events⟩, hplay, htest⟩ := (Option.any_eq_true _ _).mp (by decide +kernel :
    ((Trace.play (authStep samePassword) (registered alice 0) lateWrite).any fun last =>
      .loggedIn ⟨⟨1⟩, 1, 900⟩ ∈ last.2 ∧ AuthGuard.validUser last.1.user 1 = true ∧
        (authStep samePassword last.1 (.canActivate 4 ⟨⟨1⟩, 1, 900⟩)).any fun next =>
          .verdict ⟨⟨1⟩, 1, 900⟩ false ∈ next.2) = true)
  obtain ⟨hlogin, hvalid, hnext⟩ := of_decide_eq_true htest
  obtain ⟨⟨m', output⟩, hstep, hverdict⟩ := (Option.any_eq_true _ _).mp hnext
  exact ⟨events, output, m, m', Trace.play_run hplay, hlogin, hvalid, hstep, of_decide_eq_true hverdict⟩

end Runs

end Rules
end LivePoly
