import EdgeProxy.Domain.Upstream
import EdgeProxy.Lib.Action

/-! # Admin sessions

The Admin API over a history of requests: `setup`, `login` and `logout` change the authenticator
and the session store, and every other route only reads the sessions, so it is a parameter here
(`dispatch`). A request is the text a connection delivers; one that does not parse changes nothing.

An adversary who has seen no response knows only what a history makes public: how many logins
succeeded before. `publicPair` is the session identity and CSRF token that this number gives.
-/

namespace EdgeProxy

open Rust Option

inductive AdminHttpMethod where
  | get | post | patch | delete
  deriving DecidableEq

structure AdminHttpRequest where
  method : AdminHttpMethod
  path : Text
  requestId : Text
  sessionId : Option Text
  csrfToken : Option Text
  body : Text

/-- A response, with the error that `error_response` renders still as data. -/
inductive AdminHttpResponse where
  | json (statusCode : ℕ) (body : Text) (headers : List (Text × Text))
  | error (statusCode : ℕ) (error : AppError) (requestId : Text)

def jsonResponse (statusCode : ℕ) (body : Text) (headers : List (Text × Text)) :
    AdminHttpResponse :=
  .json statusCode body (("content-type".toList, "application/json".toList) :: headers)

def malformedAdminRequest (message : String) : AppError := ⟨.httpMalformedRequest, message⟩

def parseHttpMethod : Option Text → Except AppError AdminHttpMethod
  | none => .error (malformedAdminRequest "missing HTTP method")
  | some method =>
    if method = "GET".toList then .ok .get
    else if method = "POST".toList then .ok .post
    else if method = "PATCH".toList then .ok .patch
    else if method = "DELETE".toList then .ok .delete
    else .error (malformedAdminRequest "unsupported HTTP method")

def cookieValue (header name : Text) : Option Text :=
  (header.splitOn ';').findSome? fun part =>
    match splitOnce '=' (trim part) with
    | some (candidate, value) => if candidate = name then some value else none
    | none => none

structure AdminHeaders where
  requestId : Text
  sessionId : Option Text
  csrfToken : Option Text

def AdminHeaders.read (headers : AdminHeaders) (name value : Text) : AdminHeaders :=
  if eqIgnoreAsciiCase name "x-request-id".toList && !value.isEmpty then
    { headers with requestId := value }
  else if eqIgnoreAsciiCase name "x-csrf-token".toList && !value.isEmpty then
    { headers with csrfToken := some value }
  else if eqIgnoreAsciiCase name "cookie".toList then
    { headers with sessionId := cookieValue value "sponzey_session".toList }
  else headers

def parseAdminHeaders : AdminHeaders → List Text → Except AppError AdminHeaders
  | headers, [] => .ok headers
  | headers, line :: lines =>
    match splitOnce ':' line with
    | none => .error (malformedAdminRequest "malformed HTTP header")
    | some (name, value) => parseAdminHeaders (headers.read (trim name) (trim value)) lines

def parseAdminHttpRequest (raw fallbackRequestId : Text) : Except AppError AdminHttpRequest := do
  let (head, body) := (splitOnceAt "\r\n\r\n".toList raw).getD (raw, [])
  match lines head with
  | [] => .error (malformedAdminRequest "missing HTTP request line")
  | requestLine :: lines =>
    let requestParts := splitWhitespace requestLine
    let method ← parseHttpMethod requestParts[0]?
    match requestParts[1]? with
    | none => .error (malformedAdminRequest "missing HTTP path")
    | some path =>
      match requestParts[2]? with
      | none => .error (malformedAdminRequest "missing HTTP version")
      | some version =>
        if version ≠ "HTTP/1.1".toList ∧ version ≠ "HTTP/1.0".toList then
          .error (malformedAdminRequest "unsupported HTTP version")
        else
          let headers ← parseAdminHeaders ⟨fallbackRequestId, none, none⟩ lines
          return { headers with method, path, body }

def jsonEscape (value : Text) : Text := value.flatMap fun character =>
  match character with
  | '\\' => ['\\', '\\']
  | '"' => ['\\', '"']
  | '\n' => ['\\', 'n']
  | '\r' => ['\\', 'r']
  | '\t' => ['\\', 't']
  | _ => [character]

def jsonEscapedCharacter : Char → Option Char
  | '"' => some '"'
  | '\\' => some '\\'
  | '/' => some '/'
  | 'n' => some '\n'
  | 'r' => some '\r'
  | 't' => some '\t'
  | _ => none

def jsonStringCharacters : Text → Option Text
  | [] => none
  | '\\' :: [] => none
  | '\\' :: character :: rest => do
    let character ← jsonEscapedCharacter character
    return character :: (← jsonStringCharacters rest)
  | character :: rest =>
    if character = '"' then some [] else (jsonStringCharacters rest).map (character :: ·)

def jsonStringField (body field : Text) : Option Text := do
  let (_, afterName) ← splitOnceAt ('"' :: field ++ ['"']) body
  let (_, afterColon) ← splitOnce ':' afterName
  let afterOpen ← stripPrefix ['"'] (trimStart afterColon)
  jsonStringCharacters afterOpen

structure Session where
  sessionId : Text
  csrfToken : Text
  deriving DecidableEq

abbrev SessionStore := AList fun _ : Text => Text

namespace SessionStore

def insertSession (session : Session) (sessions : SessionStore) : SessionStore :=
  sessions.insert session.sessionId session.csrfToken

def verify (sessions : SessionStore) (sessionId : Text) : Bool :=
  (sessions.lookup sessionId).isSome

def verifyCsrf (sessions : SessionStore) (sessionId csrfToken : Text) : Bool :=
  (sessions.lookup sessionId).any (· == csrfToken)

end SessionStore

def requireSession (sessions : SessionStore) : Option Text → Except AppError Unit
  | none => .error ⟨.adminAuthRequired, "admin session is required"⟩
  | some sessionId =>
    if SessionStore.verify sessions sessionId then .ok ⟨⟩
    else .error ⟨.adminAuthRequired, "admin session is invalid"⟩

def requireCsrf (sessions : SessionStore) (sessionId : Text) : Option Text → Except AppError Unit
  | none => .error ⟨.adminCsrfRequired, "csrf token is required"⟩
  | some csrfToken =>
    if SessionStore.verifyCsrf sessions sessionId csrfToken then .ok ⟨⟩
    else .error ⟨.adminCsrfRequired, "csrf token is invalid"⟩

structure AdminAuthenticator where
  passwordHash : Text
  nextSession : ℕ
  failedAttempts : ℕ
  maxFailedAttempts : ℕ
  deriving DecidableEq

def AdminAuthenticator.new (passwordHash : Text) : AdminAuthenticator where
  passwordHash := passwordHash
  nextSession := 1
  failedAttempts := 0
  maxFailedAttempts := 5

def numberedSession (number : ℕ) : Session where
  sessionId := "session-".toList ++ (toString number).toList
  csrfToken := "csrf-".toList ++ (toString number).toList

abbrev LoginAction (α : Type) := Action (AdminAuthenticator × SessionStore) AppError α

def AdminAuthenticator.login (passwordHash : Text) : LoginAction Session :=
  fun (authenticator, sessions) =>
    if authenticator.failedAttempts ≥ authenticator.maxFailedAttempts then
      (.error ⟨.adminInvalidCredentials, "too many failed attempts"⟩, authenticator, sessions)
    else if passwordHash ≠ authenticator.passwordHash then
      (.error ⟨.adminInvalidCredentials, "invalid credentials"⟩,
        { authenticator with failedAttempts := authenticator.failedAttempts + 1 }, sessions)
    else
      let session := numberedSession authenticator.nextSession
      (.ok session,
        { authenticator with
          failedAttempts := 0, nextSession := (authenticator.nextSession + 1) % 2 ^ 64 },
        SessionStore.insertSession session sessions)

section Handlers

structure SecretRecord where
  name : Text
  value : Text
  deriving DecidableEq

/-- The port through which the password hash is kept; both operations may fail. -/
class SecretStore (κ : Type) where
  saveSecret : SecretRecord → Action κ AppError PUnit
  loadSecret : κ → Text → Except AppError (Option SecretRecord)

structure AdminState (κ : Type) where
  authenticator : Option AdminAuthenticator
  sessions : SessionStore
  secrets : κ

variable {κ : Type} [SecretStore κ]

def loginResponseJson (session : Session) : Text :=
  "\x7b\"csrf_token\":\"".toList ++ jsonEscape session.csrfToken ++ "\"\x7d".toList

def sessionCookieHeader (sessionId : Text) : Text :=
  "sponzey_session=".toList ++ jsonEscape sessionId ++
    "; Path=/; HttpOnly; Secure; SameSite=Strict".toList

def expiredSessionCookieHeader : Text :=
  "sponzey_session=; Path=/; Max-Age=0; HttpOnly; Secure; SameSite=Strict".toList

variable (dispatch : Dispatch) (request : AdminHttpRequest) (state : AdminState κ)
  (requestId : Text)

def setupRequiredResponse : AdminHttpResponse :=
  .error 403 ⟨.adminSetupRequired, "admin setup is required before login"⟩ requestId

def setupAlreadyCompleteResponse : AdminHttpResponse :=
  .error 409 ⟨.adminSetupAlreadyComplete, "admin setup is already complete"⟩ requestId

def isCertificateMutationPath (path : Text) : Bool :=
  "/api/v1/certificates/".toList.isPrefixOf path &&
    ("/issue".toList.isSuffixOf path || "/renew".toList.isSuffixOf path ||
      "/import".toList.isSuffixOf path)

def isMutationRoute (method : AdminHttpMethod) (path : Text) : Bool :=
  match method with
  | .patch | .delete => true
  | .get => false
  | .post =>
    path == "/api/v1/config/apply".toList || path == "/api/v1/config/rollback".toList ||
      path == "/api/v1/proxy-hosts".toList || path == "/api/v1/trust-bundles".toList ||
      path == "/api/v1/logout".toList || isCertificateMutationPath path

def handleSetup : AdminHttpResponse × AdminState κ :=
  if state.authenticator.isSome then (setupAlreadyCompleteResponse request.requestId, state)
  else
    match SecretStore.loadSecret state.secrets "admin-password-hash".toList with
    | .ok (some _) => (setupAlreadyCompleteResponse request.requestId, state)
    | .error error => (.error 500 error request.requestId, state)
    | .ok none =>
      match jsonStringField request.body "password_hash".toList with
      | none =>
        (.error 400 (malformedAdminRequest "setup request requires password_hash")
          request.requestId, state)
      | some passwordHash =>
        match SecretStore.saveSecret ⟨"admin-password-hash".toList, passwordHash⟩ state.secrets with
        | (.error error, secrets) =>
          (.error 500 error request.requestId, { state with secrets })
        | (.ok _, secrets) =>
          (jsonResponse 200 "\x7b\"setup_complete\":true\x7d".toList [],
            { state with secrets, authenticator := some (.new passwordHash) })

def handleLogin (authenticator : AdminAuthenticator)
    (state : AdminState κ) : AdminHttpResponse × AdminState κ :=
  match jsonStringField request.body "password_hash".toList with
  | none =>
    (.error 400 (malformedAdminRequest "login request requires password_hash")
      request.requestId, state)
  | some passwordHash =>
    match AdminAuthenticator.login passwordHash (authenticator, state.sessions) with
    | (.ok session, authenticator, sessions) =>
      (jsonResponse 200 (loginResponseJson session)
        [("set-cookie".toList, sessionCookieHeader session.sessionId)],
        { state with authenticator := some authenticator, sessions })
    | (.error error, authenticator, sessions) =>
      (.error 401 error request.requestId,
        { state with authenticator := some authenticator, sessions })

def handleLogout : AdminHttpResponse × AdminState κ :=
  match request.sessionId with
  | none => (.error 401 ⟨.adminAuthRequired, "admin session is required"⟩ request.requestId, state)
  | some sessionId =>
    match requireSession state.sessions (some sessionId) with
    | .error error => (.error 401 error request.requestId, state)
    | .ok _ =>
      match requireCsrf state.sessions sessionId request.csrfToken with
      | .error error => (.error 403 error request.requestId, state)
      | .ok _ =>
        (jsonResponse 200 "\x7b\"logged_out\":true\x7d".toList
          [("set-cookie".toList, expiredSessionCookieHeader)],
          { state with sessions := state.sessions.erase sessionId })

abbrev Dispatch := AdminHttpRequest → SessionStore → AdminHttpResponse

def handleStatefulHttpRequest : AdminHttpResponse × AdminState κ :=
  if request.method = .post ∧ request.path = "/api/v1/setup".toList then
    handleSetup request state
  else if request.method = .post ∧ request.path = "/api/v1/login".toList then
    match state.authenticator with
    | none => (setupRequiredResponse request.requestId, state)
    | some authenticator => handleLogin request authenticator state
  else if request.method = .post ∧ request.path = "/api/v1/logout".toList then
    if state.authenticator.isNone then (setupRequiredResponse request.requestId, state)
    else handleLogout request state
  else if state.authenticator.isNone && isMutationRoute request.method request.path then
    (setupRequiredResponse request.requestId, state)
  else (dispatch request state.sessions, state)

/-- One connection: a request that does not parse is answered with nothing. -/
def serve (raw : Text) (state : AdminState κ) : Option AdminHttpResponse × AdminState κ :=
  match parseAdminHttpRequest raw "admin-http".toList with
  | .error _ => (none, state)
  | .ok request => (handleStatefulHttpRequest dispatch request state).map some id

def AdminState.start (passwordHash : Option Text) (secrets : κ) : AdminState κ where
  authenticator := passwordHash.map .new
  sessions := ∅
  secrets := secrets

def AdminState.after (history : List Text) (state : AdminState κ) : AdminState κ :=
  history.foldl (fun state raw => (serve dispatch raw state).2) state

end Handlers

section Secrecy

variable {κ : Type} {dispatch : Dispatch} {state state' : AdminState κ}
  {raw : Text} {request : AdminHttpRequest}

def issued (raw : Text) (state : AdminState κ) : Option Session :=
  match parseAdminHttpRequest raw "admin-http".toList with
  | .error _ => none
  | .ok request =>
    if request.method = .post ∧ request.path = "/api/v1/login".toList then do
      let authenticator ← state.authenticator
      let passwordHash ← jsonStringField request.body "password_hash".toList
      (AdminAuthenticator.login passwordHash (authenticator, state.sessions)).1.toOption
    else none

def publicPair (logins : ℕ) : Session := numberedSession ((logins + 1) % 2 ^ 64)

def Admits (sessions : SessionStore) (session : Session) : Prop :=
  requireSession sessions (some session.sessionId) = .ok () ∧
    requireCsrf sessions session.sessionId (some session.csrfToken) = .ok ()

/-- A login with the right password while the authenticator still accepts attempts. -/
def LoginAccepted (request : AdminHttpRequest) (state : AdminState κ) : Prop :=
  request.method = .post ∧ request.path = "/api/v1/login".toList ∧
    ∃ authenticator, state.authenticator = some authenticator ∧
      authenticator.failedAttempts < authenticator.maxFailedAttempts ∧
      jsonStringField request.body "password_hash".toList = some authenticator.passwordHash

theorem AdminAuthenticator.login_cases (passwordHash : Text) (authenticator : AdminAuthenticator)
    (sessions : SessionStore) :
    (authenticator.failedAttempts < authenticator.maxFailedAttempts ∧
        passwordHash = authenticator.passwordHash ∧
        login passwordHash (authenticator, sessions) =
          (.ok (numberedSession authenticator.nextSession), { authenticator with
              failedAttempts := 0, nextSession := (authenticator.nextSession + 1) % 2 ^ 64 },
            SessionStore.insertSession (numberedSession authenticator.nextSession) sessions)) ∨
      ¬(authenticator.failedAttempts < authenticator.maxFailedAttempts ∧
          passwordHash = authenticator.passwordHash) ∧
        ∃ error failedAttempts, login passwordHash (authenticator, sessions) =
          (.error error, { authenticator with failedAttempts }, sessions) := by
  simp only [login]
  split
  · next h => exact .inr ⟨fun hc => absurd hc.1 (Nat.not_lt.mpr h), _, _, rfl⟩
  · next h =>
    split
    · next hne => exact .inr ⟨fun hc => hne hc.2, _, _, rfl⟩
    · next heq => exact .inl ⟨Nat.lt_of_not_le h, not_not.mp heq, rfl⟩

inductive Served (state : AdminState κ) : Option Session → AdminState κ → Prop
  | kept (authenticator : Option AdminAuthenticator) (secrets : κ)
      (hnext : authenticator.map (·.nextSession) = state.authenticator.map (·.nextSession)) :
      Served state none { state with authenticator, secrets }
  | setup (passwordHash : Text) (secrets : κ) (hnone : state.authenticator = none) :
      Served state none { state with authenticator := some (.new passwordHash), secrets }
  | login (authenticator : AdminAuthenticator) (hsome : state.authenticator = some authenticator) :
      Served state (some (numberedSession authenticator.nextSession)) { state with
        authenticator := some { authenticator with
          failedAttempts := 0, nextSession := (authenticator.nextSession + 1) % 2 ^ 64 }
        sessions := SessionStore.insertSession (numberedSession authenticator.nextSession)
          state.sessions }
  | logout (sessionId : Text) :
      Served state none { state with sessions := state.sessions.erase sessionId }

theorem served_refl (state : AdminState κ) : Served state none state :=
  .kept state.authenticator state.secrets rfl

theorem handleLogout_served (request : AdminHttpRequest) (state : AdminState κ) :
    Served state none (handleLogout request state).2 := by
  unfold handleLogout
  repeat' split
  · exact served_refl state
  · exact served_refl state
  · exact served_refl state
  · exact .logout _

theorem handleLogin_served (request : AdminHttpRequest) {authenticator : AdminAuthenticator}
    {state : AdminState κ} (hsome : state.authenticator = some authenticator) :
    Served state
      ((jsonStringField request.body "password_hash".toList).bind fun passwordHash =>
        (AdminAuthenticator.login passwordHash (authenticator, state.sessions)).1.toOption)
      (handleLogin request authenticator state).2 := by
  unfold handleLogin
  cases jsonStringField request.body "password_hash".toList with
  | none => exact served_refl state
  | some passwordHash =>
    rcases AdminAuthenticator.login_cases passwordHash authenticator state.sessions with
      ⟨-, -, h⟩ | ⟨-, error, failedAttempts, h⟩
    · simp only [bind_some, h]
      exact .login authenticator hsome
    · simp only [bind_some, h]
      exact .kept _ state.secrets (by rw [hsome]; rfl)

theorem issued_isSome_iff :
    (issued raw state).isSome = true ↔
      ∃ request, parseAdminHttpRequest raw "admin-http".toList = .ok request ∧
        LoginAccepted request state := by
  unfold issued
  cases parseAdminHttpRequest raw "admin-http".toList with
  | error => simp
  | ok request =>
    simp only [Except.ok.injEq, exists_eq_left', LoginAccepted]
    by_cases hroute : request.method = .post ∧ request.path = "/api/v1/login".toList
    · rw [if_pos hroute]
      obtain ⟨hmethod, hpath⟩ := hroute
      simp only [hmethod, hpath, true_and]
      cases state.authenticator with
      | none => simp
      | some authenticator =>
        cases jsonStringField request.body "password_hash".toList with
        | none => simp
        | some passwordHash =>
          rcases AdminAuthenticator.login_cases passwordHash authenticator state.sessions with
            ⟨hlt, heq, h⟩ | ⟨hno, error, failedAttempts, h⟩
          · subst heq
            simp [h, hlt, Except.toOption]
          · simpa [h, Except.toOption] using hno
    · rw [if_neg hroute]
      simp only [isSome_none, Bool.false_eq_true, false_iff]
      exact fun h => hroute ⟨h.1, h.2.1⟩

structure Counted (n : ℕ) (state : AdminState κ) : Prop where
  next : ∀ authenticator ∈ state.authenticator, authenticator.nextSession = (n + 1) % 2 ^ 64
  fresh : state.authenticator = none → n = 0

theorem counted_start (passwordHash : Option Text) (secrets : κ) :
    Counted 0 (AdminState.start passwordHash secrets) := by
  refine ⟨?_, fun _ => rfl⟩
  rintro _ h
  obtain ⟨_, -, rfl⟩ := map_eq_some_iff.mp h
  rfl

theorem Counted.served {n : ℕ} {session : Option Session} (h : Counted n state)
    (hs : Served state session state') :
    Counted (n + session.toList.length) state' ∧ ∀ s ∈ session, s = publicPair n := by
  cases hs with
  | kept _ _ hnext =>
    refine ⟨⟨?_, ?_⟩, nofun⟩
    · rintro a rfl
      obtain ⟨b, hb, heq⟩ := map_eq_some_iff.mp hnext.symm
      exact heq.symm.trans (h.next b hb)
    · rintro rfl
      exact h.fresh (map_eq_none_iff.mp hnext.symm)
  | setup _ _ hnone =>
    refine ⟨⟨?_, nofun⟩, nofun⟩
    rintro _ ⟨⟩
    rw [h.fresh hnone]
    rfl
  | login authenticator hsome =>
    have hnext := h.next authenticator hsome
    refine ⟨⟨?_, nofun⟩, ?_⟩
    · rintro _ ⟨⟩
      change (authenticator.nextSession + 1) % 2 ^ 64 = (n + 1 + 1) % 2 ^ 64
      rw [hnext, Nat.mod_add_mod]
    · rintro _ ⟨⟩
      rw [publicPair, hnext]
  | logout => exact ⟨⟨h.next, h.fresh⟩, nofun⟩

theorem admits_insertSession (session : Session) (sessions : SessionStore) :
    Admits (SessionStore.insertSession session sessions) session := by
  simp [Admits, requireSession, requireCsrf, SessionStore.verify, SessionStore.verifyCsrf,
    SessionStore.insertSession]

variable {session : Session}

theorem Served.admits (h : Served state (some session) state') :
    Admits state'.sessions session := by
  cases h
  exact admits_insertSession _ _

theorem Served.sessions_empty (h : Served state none state') (hempty : state.sessions = ∅) :
    state'.sessions = ∅ := by
  cases h with
  | kept => exact hempty
  | setup => exact hempty
  | logout sessionId =>
    change state.sessions.erase sessionId = ∅
    rw [hempty]
    rfl

theorem not_admits_empty (session : Session) : ¬Admits ∅ session := by
  simp [Admits, requireSession, SessionStore.verify]

theorem admits_iff {sessions : SessionStore} : Admits sessions session ↔
    sessions.lookup session.sessionId = some session.csrfToken := by
  rw [Admits, requireSession, requireCsrf, SessionStore.verify, SessionStore.verifyCsrf]
  cases sessions.lookup session.sessionId <;> simp

theorem Served.admits_before {given : Option Session}
    (h : Served state given state') (hadmits : Admits state'.sessions session) :
    Admits state.sessions session ∨ given = some session := by
  rw [admits_iff] at hadmits ⊢
  cases h with
  | kept | setup => exact .inl hadmits
  | login authenticator =>
    by_cases hid : session.sessionId = (numberedSession authenticator.nextSession).sessionId
    · rw [hid, SessionStore.insertSession, AList.lookup_insert, some.injEq] at hadmits
      obtain ⟨_, _⟩ := session
      exact .inr (congrArg some (congrArg₂ Session.mk hid.symm hadmits))
    · rw [SessionStore.insertSession, AList.lookup_insert_ne hid] at hadmits
      exact .inl hadmits
  | logout sessionId =>
    by_cases hid : session.sessionId = sessionId
    · subst hid
      cases (AList.lookup_erase _ _).symm.trans hadmits
    · exact .inl (by rwa [AList.lookup_erase_ne hid] at hadmits)

variable [SecretStore κ]

theorem handleSetup_served (request : AdminHttpRequest) (state : AdminState κ) :
    Served state none (handleSetup request state).2 := by
  unfold handleSetup
  split
  · exact served_refl state
  · next hnone =>
    have hnone : state.authenticator = none := by simpa using hnone
    repeat' split
    · exact served_refl state
    · exact served_refl state
    · exact served_refl state
    · exact .kept state.authenticator _ rfl
    · exact .setup _ _ hnone

theorem serve_served (dispatch : Dispatch) (raw : Text) (state : AdminState κ) :
    Served state (issued raw state) (serve dispatch raw state).2 := by
  unfold serve issued
  cases parseAdminHttpRequest raw "admin-http".toList with
  | error => exact served_refl state
  | ok request =>
    change Served state _ (handleStatefulHttpRequest dispatch request state).2
    unfold handleStatefulHttpRequest
    by_cases hlogin : request.method = .post ∧ request.path = "/api/v1/login".toList
    · have hsetup : ¬(request.method = .post ∧ request.path = "/api/v1/setup".toList) :=
        fun h => absurd (hlogin.2.symm.trans h.2) (by decide)
      simp only [if_pos hlogin, if_neg hsetup]
      cases hauth : state.authenticator with
      | none => exact served_refl state
      | some => exact handleLogin_served request hauth
    · simp only [if_neg hlogin]
      repeat' split
      · exact handleSetup_served request state
      · exact served_refl state
      · exact handleLogout_served request state
      · exact served_refl state
      · exact served_refl state

theorem AdminState.after_concat (dispatch : Dispatch) (p : List Text) (raw : Text)
    (state : AdminState κ) :
    state.after dispatch (p ++ [raw]) = (serve dispatch raw (state.after dispatch p)).2 := by
  simp [AdminState.after]

def successfulLogins (dispatch : Dispatch) : List Text → AdminState κ → ℕ
  | [], _ => 0
  | raw :: history, state =>
    (issued raw state).toList.length +
      successfulLogins dispatch history (serve dispatch raw state).2

theorem Counted.after {n : ℕ} (h : Counted n state) (dispatch : Dispatch) (p : List Text) :
    Counted (n + successfulLogins dispatch p state) (state.after dispatch p) := by
  induction p generalizing n state with
  | nil => exact h
  | cons raw _ ih =>
    have := ih (h.served (serve_served dispatch raw state)).1
    rwa [Nat.add_assoc] at this

theorem issued_eq_publicPair {passwordHash : Option Text} {secrets : κ} {p : List Text}
    (h : issued raw ((AdminState.start passwordHash secrets).after dispatch p) = some session) :
    session = publicPair (successfulLogins dispatch p (.start passwordHash secrets)) := by
  have hcount := (counted_start passwordHash secrets).after dispatch p
  rw [Nat.zero_add] at hcount
  exact (hcount.served (serve_served dispatch raw _)).2 session h

/-- Along a history no public pair is admitted, and the number of earlier logins does not force
which session is issued. -/
structure SessionSecrecy (dispatch : Dispatch) (start : AdminState κ) (history : List Text) :
    Prop where
  unnamed : ∀ p, p <+: history → ∀ n, ¬Admits (start.after dispatch p).sessions (publicPair n)
  unforced : ∀ p raw session, p ++ [raw] <+: history →
    issued raw (start.after dispatch p) = some session →
    ∃ (passwordHash : Option Text) (secrets : κ) (p' : List Text) (raw' : Text)
      (session' : Session),
      successfulLogins dispatch p' (.start passwordHash secrets) =
          successfulLogins dispatch p start ∧
        issued raw' ((AdminState.start passwordHash secrets).after dispatch p') = some session' ∧
        session' ≠ session

/-- Secrecy along a history: it holds exactly as long as nobody logs in. Every login issues the
session that the number of earlier logins names. -/
theorem session_secrecy_iff (dispatch : Dispatch) (passwordHash : Option Text) (secrets : κ)
    (history : List Text) :
    SessionSecrecy dispatch (AdminState.start passwordHash secrets) history ↔
      ∀ p raw request, p ++ [raw] <+: history →
        parseAdminHttpRequest raw "admin-http".toList = .ok request →
        ¬LoginAccepted request ((AdminState.start passwordHash secrets).after dispatch p) := by
  constructor
  · intro h p raw request hp hparse haccepted
    obtain ⟨session, hissued⟩ := isSome_iff_exists.mp
      (issued_isSome_iff.mpr ⟨request, hparse, haccepted⟩)
    have hadmits := (hissued ▸ serve_served dispatch raw
      ((AdminState.start passwordHash secrets).after dispatch p)).admits
    rw [issued_eq_publicPair hissued, ← AdminState.after_concat] at hadmits
    exact h.unnamed _ hp _ hadmits
  · intro h
    have hissued : ∀ p raw, p ++ [raw] <+: history →
        issued raw ((AdminState.start passwordHash secrets).after dispatch p) = none := by
      intro p raw hp
      by_contra hne
      obtain ⟨request, hparse, haccepted⟩ :=
        issued_isSome_iff.mp (ne_none_iff_isSome.mp hne)
      exact h p raw request hp hparse haccepted
    have hempty : ∀ p, p <+: history →
        ((AdminState.start passwordHash secrets).after dispatch p).sessions = ∅ := by
      intro p
      induction p using List.reverseRecOn with
      | nil => exact fun _ => rfl
      | append_singleton p raw ih =>
        intro hp
        have hserved := serve_served dispatch raw
          ((AdminState.start passwordHash secrets).after dispatch p)
        rw [hissued p raw hp, ← AdminState.after_concat] at hserved
        exact hserved.sessions_empty (ih ((List.prefix_append p [raw]).trans hp))
    refine ⟨fun p hp n => ?_, fun p raw session hp hsome => ?_⟩
    · rw [hempty p hp]
      exact not_admits_empty _
    · rw [hissued p raw hp] at hsome
      nomatch hsome

instance : SecretStore (List SecretRecord) where
  saveSecret secret := fun secrets => (.ok ⟨⟩, secret :: secrets)
  loadSecret secrets name := .ok (secrets.find? (·.name = name))

def loginRequest (passwordHash : String) : Text :=
  "POST /api/v1/login HTTP/1.1\r\n\r\n\x7b\"password_hash\":\"".toList ++ passwordHash.toList ++
    "\"\x7d".toList

/-- After the first login anyone can name the session, and another server with another password
issues the same one. -/
theorem first_session_is_public :
    Admits ((AdminState.start (some "hash".toList) ([] : List SecretRecord)).after
        (fun request _ => setupRequiredResponse request.requestId) [loginRequest "hash"]).sessions
        ⟨"session-1".toList, "csrf-1".toList⟩ ∧
      publicPair 0 = ⟨"session-1".toList, "csrf-1".toList⟩ ∧
      issued (loginRequest "other")
          (AdminState.start (some "other".toList) ([] : List SecretRecord)) =
        some ⟨"session-1".toList, "csrf-1".toList⟩ := by
  refine ⟨⟨?_, ?_⟩, ?_⟩ <;> decide

/-- A login of the history with the right password, while attempts were left, issued the session. -/
def IssuedIn (dispatch : Dispatch) (start : AdminState κ) (history : List Text)
    (session : Session) : Prop :=
  ∃ p raw request, p ++ [raw] <+: history ∧
    parseAdminHttpRequest raw "admin-http".toList = .ok request ∧
    LoginAccepted request (start.after dispatch p) ∧
    issued raw (start.after dispatch p) = some session

/-- A session that is admitted after a history was issued in that history. -/
theorem admitted_session_was_issued (dispatch : Dispatch) (passwordHash : Option Text) (secrets : κ)
    (history : List Text)
    (h : Admits ((AdminState.start passwordHash secrets).after dispatch history).sessions session) :
    IssuedIn dispatch (.start passwordHash secrets) history session := by
  induction history using List.reverseRecOn with
  | nil => exact absurd h (not_admits_empty session)
  | append_singleton history raw ih =>
    rw [AdminState.after_concat] at h
    rcases (serve_served dispatch raw _).admits_before h with hold | hissued
    · obtain ⟨p, raw', request, hp, hlogin⟩ := ih hold
      exact ⟨p, raw', request, hp.trans (List.prefix_append _ _), hlogin⟩
    · obtain ⟨request, hparse, haccepted⟩ := issued_isSome_iff.mp (isSome_of_eq_some hissued)
      exact ⟨history, raw, request, List.prefix_rfl, hparse, haccepted, hissued⟩

theorem first_session_was_issued :
    IssuedIn (fun _ _ => setupRequiredResponse [])
      (AdminState.start (some "hash".toList) ([] : List SecretRecord)) [loginRequest "hash"]
      (publicPair 0) :=
  admitted_session_was_issued _ _ _ _ ⟨by decide, by decide⟩

section Lockout

variable {authenticator : AdminAuthenticator} (hsome : state.authenticator = some authenticator)
  (hlocked : authenticator.maxFailedAttempts ≤ authenticator.failedAttempts) (dispatch : Dispatch)

include hsome hlocked

theorem serve_locked (raw : Text) :
    (serve dispatch raw state).2.authenticator = some authenticator := by
  unfold serve handleStatefulHttpRequest handleSetup handleLogin handleLogout
  simp only [hsome, AdminAuthenticator.login, if_pos hlocked, ge_iff_le]
  repeat' split
  all_goals simp_all

/-- Once the authenticator has seen too many failed attempts, no request logs in any more, whatever
the password and however many requests are made. -/
theorem lockout_is_final (history : List Text) (raw : Text) :
    issued raw (state.after dispatch history) = none := by
  have hkept : (state.after dispatch history).authenticator = some authenticator :=
    List.foldlRecOn (motive := fun state : AdminState κ => state.authenticator = some authenticator)
      history _ hsome fun _ hsome raw _ => serve_locked hsome hlocked dispatch raw
  by_contra hne
  obtain ⟨_, -, -, -, _, hauthenticator, hleft, -⟩ :=
    issued_isSome_iff.mp (ne_none_iff_isSome.mp hne)
  cases hkept.symm.trans hauthenticator
  exact absurd hlocked (Nat.not_le.mpr hleft)

end Lockout

/-- Five wrong passwords keep out the right one. -/
theorem five_failures_lock_out :
    issued (loginRequest "hash")
      ((AdminState.start (some "hash".toList) ([] : List SecretRecord)).after
        (fun _ _ => setupRequiredResponse []) (List.replicate 5 (loginRequest "other"))) = none :=
  lockout_is_final (show _ = some ⟨"hash".toList, 1, 5, 5⟩ by decide) le_rfl
    (fun _ _ => setupRequiredResponse []) [] _

end Secrecy

end EdgeProxy
