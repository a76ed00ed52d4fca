import LuxonServer.DataModel.RoundTrip
import LuxonServer.Tokens

/-! `authenticate`: how a request gets its connection an identity, and what a request that fails
leaves.  The build has plugins and the settings database. -/

namespace LuxonServer

/-- `AppSettings::AuthMode`, a setting that any number can be given for. -/
inductive AuthMode where
  | weak
  | anonymous
  | strict
  | other (mode : Nat)
  deriving DecidableEq, Repr

/-- `AppSettings::CustomAnonymousUIDMode`, likewise. -/
inductive CustomAnonymousUidMode where
  | allow
  | allowWithPrefix
  | forceRandom
  | other (mode : Nat)
  deriving DecidableEq, Repr

/-- `AppSettings`, as far as `authenticate` reads them. -/
structure AuthSettings where
  appid : String
  authMode : AuthMode := .weak
  customAnonymousUidMode : CustomAnonymousUidMode := .allow
  anonymousUidPrefix : String := ""
  maxPeers : Nat := 0

/-- `AuthProviderSettings`. -/
structure AuthProviderSettings where
  isAllowed : Bool
  secret : Option String := none
  authUrl : Option String := none

/-- What `authenticate` asks the server manager. -/
structure AuthServer where
  maxConnections : Nat
  connectionCount : Nat
  /-- `App::get`, with the settings and the peer count of the app. -/
  getApp : String → String → Option (AuthSettings × Nat)
  /-- `settings_manager->get_auth_provider`. -/
  getAuthProvider : String → UInt8 → Option AuthProviderSettings

/-- The random strings that an authentication may draw. -/
structure AuthRandom where
  /-- `generate_user_id`. -/
  userId : String
  /-- `create_token`. -/
  token : String

structure AuthRequest (otherName : UInt8 → String) where
  operationCode : UInt8
  parameters : ParameterList (Value.wireFormat otherName)

structure AuthResponse where
  operationCode : UInt8
  returnCode : Int := 0
  debugMessage : String := ""
  deriving DecidableEq, Repr

/-- `ErrorCodes::Throttling::MaxCcuReached`. -/
def maxCcuReached : Int := 32757

/-- `ErrorCodes::Auth::InvalidAuthentication`. -/
def invalidAuthentication : Int := 32767

/-- `ErrorCodes::Auth::CustomAuthenticationFailed`. -/
def customAuthenticationFailed : Int := 32755

/-- `ErrorCodes::Auth::AuthenticationTokenExpired`. -/
def authenticationTokenExpired : Int := 32753

/-- The parameters of a `StandardAuth`. -/
structure StandardAuthParams where
  applicationId : String
  authType : UInt8
  authParams : String
  appVersion : Option String
  userId : Option String

/-- The version of the app that the request means. -/
def StandardAuthParams.version (params : StandardAuthParams) : String :=
  params.appVersion.getD "(poor attempt at emulating null app version)"

/-- The call of the plugin of an authentication type, `auth_plugins::registry::call`. -/
structure PluginCall where
  authType : UInt8
  requestedUserId : String
  params : String
  data : String
  secret : Option String
  authUrl : Option String

/-- What a plugin call gives: no plugin for the type, or a user id, or an error response. -/
abbrev PluginResult := Option (Except AuthResponse String)

/-- An authentication that waits for its plugin. -/
structure PendingAuth where
  operationCode : UInt8
  persistent : PeerPersistent
  call : PluginCall

/-- The end of an authentication: the identity of the connection, or the response of a failure. -/
abbrev AuthOutcome := Except AuthResponse PeerPersistent

/-- How far an authentication gets at once. -/
inductive AuthProgress where
  | returned (outcome : AuthOutcome)
  | awaiting (pending : PendingAuth)

/-- The connection that authenticates, and the stored tokens. -/
structure AuthState where
  persistent : Option PeerPersistent
  tokens : TokenStore

/-- `get_anonymous_user_id`. -/
def getAnonymousUserId (mode : CustomAnonymousUidMode) (uidPrefix requestedUid random : String) :
    String :=
  if mode = .forceRandom then uidPrefix ++ random
  else
    let requestedUid := if requestedUid = "" then random else requestedUid
    if mode = .allowWithPrefix then uidPrefix ++ requestedUid else requestedUid

namespace AuthRequest

variable {otherName : UInt8 → String} (req : AuthRequest otherName)

/-- `req.parameters.contains(Token)`. -/
def hasToken : Bool := 221 ∈ req.parameters

/-- What the request's view of a model is read as. -/
def params (ps : Model (Value.wireFormat otherName)) (hkeys : (ps.map (·.wireKey)).Nodup) :
    Except DecodeError (Fields Parameter.Stored ps) :=
  match h : Model.decode ps req.operationCode req.parameters with
  | .error e => .error e
  | .ok view => .ok ((Model.materialize req.parameters ps view).get (by
      obtain ⟨stored, hstored⟩ := Model.exists_materialize hkeys h
      rw [hstored]
      rfl))

/-- `TokenAuth::decode`. -/
def tokenParams : Except DecodeError String :=
  match req.params (Model.tokenAuth otherName) (by simp [Model.tokenAuth]) with
  | .error e => .error e
  | .ok (.cons token .nil) => .ok token

/-- `StandardAuth::decode`. -/
def standardParams : Except DecodeError StandardAuthParams :=
  match req.params (Model.standardAuth otherName) (by simp [Model.standardAuth]) with
  | .error e => .error e
  | .ok (.cons applicationId (.cons authType (.cons authParams (.cons appVersion
      (.cons userId .nil))))) =>
    .ok { applicationId, authType, authParams, appVersion, userId }

def failure (returnCode : Int) (debugMessage : String) : AuthOutcome :=
  .error { operationCode := req.operationCode, returnCode, debugMessage }

/-- A request that does not decode. -/
def decodeFailure (e : DecodeError) : AuthOutcome :=
  .error
    { operationCode := e.operationCode, returnCode := e.returnCode, debugMessage := e.debugMessage }

/-- The identity of a token. -/
def authenticateToken (refreshToken : Bool) (random : AuthRandom) (st : AuthState) :
    AuthOutcome × AuthState :=
  match req.tokenParams with
  | .error e => (decodeFailure e, st)
  | .ok token =>
    let (persistent, tokens, _) :=
      st.tokens.loadPersistentPeer token (if refreshToken then some random.token else none)
    match persistent with
    | none =>
      (req.failure authenticationTokenExpired
        "Authentication failure: Got no persistent peer data", { persistent := none, tokens })
    | some pp => (.ok pp, { persistent := some pp, tokens })

/-- The identity that a request without a token gets, or the plugin call that decides on it. -/
def authenticateStandard (server : AuthServer) (random : AuthRandom) : AuthProgress :=
  match req.standardParams with
  | .error e => .returned (decodeFailure e)
  | .ok params =>
    match server.getApp params.applicationId params.version with
    | none => .returned (req.failure invalidAuthentication "Invalid app id")
    | some (settings, peerCount) =>
      let p : PeerPersistent :=
        { userId := "", token := random.token, app := some (params.applicationId, params.version) }
      if settings.maxPeers ≠ 0 ∧ peerCount ≥ settings.maxPeers then
        .returned (req.failure maxCcuReached
          ("Max CCU of " ++ toString settings.maxPeers ++ " reached"))
      else if settings.authMode = .weak ∨
          settings.authMode = .anonymous ∧ params.authType = 0 then
        .returned (.ok { p with
          userId := getAnonymousUserId settings.customAnonymousUidMode settings.anonymousUidPrefix
            (params.userId.getD "") random.userId })
      else if params.authType = 0 then
        .returned (req.failure customAuthenticationFailed
          "Anonymous authentication is not allowed")
      else if params.userId.getD "" = "" then
        .returned (req.failure invalidAuthentication
          "User ID is required for custom authentication")
      else
        match (server.getAuthProvider settings.appid params.authType).filter (·.isAllowed) with
        | none =>
          .returned (req.failure customAuthenticationFailed
            "Authentication provider is not allowed")
        | some provider =>
          .awaiting
            { operationCode := req.operationCode
              persistent := p
              call :=
                { authType := params.authType
                  requestedUserId := params.userId.getD ""
                  params := params.authParams
                  data := provider.authUrl.getD ""
                  secret := provider.secret
                  authUrl := provider.authUrl } }

/-- `authenticate`, up to the plugin call. -/
def authenticate (server : AuthServer) (refreshToken : Bool) (random : AuthRandom)
    (st : AuthState) : AuthProgress × AuthState :=
  if server.maxConnections ≠ 0 ∧ server.connectionCount ≥ server.maxConnections then
    (.returned (req.failure maxCcuReached
      ("Max CCU of " ++ toString server.maxConnections ++ " reached")), st)
  else if req.hasToken then
    let (outcome, st) := req.authenticateToken refreshToken random st
    (.returned outcome, st)
  else
    match req.authenticateStandard server random with
    | .returned (.ok pp) => (.returned (.ok pp), { st with persistent := some pp })
    | progress => (progress, st)

end AuthRequest

/-- `authenticate`, from the plugin's answer on. -/
def PendingAuth.resume (pending : PendingAuth) (result : PluginResult) (st : AuthState) :
    AuthOutcome × AuthState :=
  match result with
  | none =>
    (.error
      { operationCode := pending.operationCode
        returnCode := customAuthenticationFailed
        debugMessage := "Authentication type not available" }, st)
  | some (.error e) => (.error { e with operationCode := pending.operationCode }, st)
  | some (.ok userId) =>
    let pp := { pending.persistent with userId }
    (.ok pp, { st with persistent := some pp })

theorem getAnonymousUserId_prefix {mode : CustomAnonymousUidMode}
    (hmode : mode = .forceRandom ∨ mode = .allowWithPrefix) (uidPrefix requestedUid random : String) :
    ∃ rest, getAnonymousUserId mode uidPrefix requestedUid random = uidPrefix ++ rest := by
  unfold getAnonymousUserId
  rcases hmode with rfl | rfl
  · exact ⟨random, rfl⟩
  · exact ⟨_, rfl⟩

namespace AuthRequest

variable {otherName : UInt8 → String} {req : AuthRequest otherName} {server : AuthServer}
  {refreshToken : Bool} {random : AuthRandom} {st after : AuthState}

/-- An identity that an app grants without asking a plugin. -/
structure Anonymous (req : AuthRequest otherName) (server : AuthServer) (random : AuthRandom)
    (userId : String) (params : StandardAuthParams) (settings : AuthSettings) : Prop where
  decoded : req.standardParams = .ok params
  app : ∃ count, server.getApp params.applicationId params.version = some (settings, count)
  mode : settings.authMode = .weak ∨ settings.authMode = .anonymous
  isPrefixed : settings.customAnonymousUidMode = .forceRandom ∨
    settings.customAnonymousUidMode = .allowWithPrefix →
      ∃ rest, userId = settings.anonymousUidPrefix ++ rest
  isRandom : settings.customAnonymousUidMode = .forceRandom →
    userId = settings.anonymousUidPrefix ++ random.userId

/-- A plugin call that an app makes. -/
structure Vouched (req : AuthRequest otherName) (server : AuthServer) (call : PluginCall)
    (params : StandardAuthParams) (settings : AuthSettings) : Prop where
  decoded : req.standardParams = .ok params
  app : ∃ count, server.getApp params.applicationId params.version = some (settings, count)
  authType : params.authType ≠ 0 ∧ call.authType = params.authType
  userId : params.userId = some call.requestedUserId ∧ call.requestedUserId ≠ ""
  provider : ∃ provider, server.getAuthProvider settings.appid params.authType = some provider ∧
    provider.isAllowed = true

theorem authenticateStandard_cases (req : AuthRequest otherName) (server : AuthServer)
    (random : AuthRandom) :
    (∃ resp, req.authenticateStandard server random = .returned (.error resp)) ∨
    (∃ pp params settings, req.authenticateStandard server random = .returned (.ok pp) ∧
      req.Anonymous server random pp.userId params settings) ∨
    ∃ pending params settings, req.authenticateStandard server random = .awaiting pending ∧
      req.Vouched server pending.call params settings := by
  unfold authenticateStandard
  cases hparams : req.standardParams with
  | error e => exact Or.inl ⟨_, rfl⟩
  | ok params =>
    simp only
    cases happ : server.getApp params.applicationId params.version with
    | none => exact Or.inl ⟨_, rfl⟩
    | some entry =>
      obtain ⟨settings, count⟩ := entry
      simp only
      split
      · exact Or.inl ⟨_, rfl⟩
      · split
        · next hmode =>
          refine Or.inr (Or.inl ⟨_, params, settings, rfl, hparams, ⟨count, happ⟩,
            hmode.imp_right And.left, fun hprefix => getAnonymousUserId_prefix hprefix _ _ _,
            fun hrandom => ?_⟩)
          unfold getAnonymousUserId
          rw [if_pos hrandom]
        · split
          · exact Or.inl ⟨_, rfl⟩
          · next htype =>
            split
            · exact Or.inl ⟨_, rfl⟩
            · next huid =>
              split
              · exact Or.inl ⟨_, rfl⟩
              · next provider hprovider =>
                obtain ⟨hprovider, hallowed⟩ := Option.filter_eq_some_iff.mp hprovider
                refine Or.inr (Or.inr ⟨_, params, settings, rfl, hparams, ⟨count, happ⟩,
                  ⟨htype, rfl⟩, ⟨?_, huid⟩, provider, hprovider, hallowed⟩)
                cases hrequested : params.userId with
                | none =>
                  rw [hrequested] at huid
                  exact absurd rfl huid
                | some uid => rfl

theorem authenticateToken_error {resp : AuthResponse}
    (h : req.authenticateToken refreshToken random st = (.error resp, after)) :
    after.tokens = st.tokens ∧ (st.persistent = none → after.persistent = none) := by
  unfold authenticateToken at h
  cases htoken : req.tokenParams with
  | error e =>
    simp only [htoken] at h
    cases h
    exact ⟨rfl, id⟩
  | ok token =>
    simp only [htoken, TokenStore.loadPersistentPeer] at h
    cases hfind : st.tokens.stored.find? fun pp => pp.token == token with
    | none =>
      simp only [hfind] at h
      cases h
      exact ⟨rfl, fun _ => rfl⟩
    | some pp =>
      simp only [hfind] at h
      cases h

/-- What `authenticate` does at once: the token decides, or the server is full, or the standard
mechanism has come to its end or to its plugin. -/
theorem authenticate_cases (req : AuthRequest otherName) (server : AuthServer)
    (refreshToken : Bool) (random : AuthRandom) (st : AuthState) :
    (∃ resp, req.authenticate server refreshToken random st = (.returned (.error resp), st)) ∨
    (req.hasToken = true ∧ req.authenticate server refreshToken random st =
      (.returned (req.authenticateToken refreshToken random st).1,
        (req.authenticateToken refreshToken random st).2)) ∨
    (∃ pp, req.authenticateStandard server random = .returned (.ok pp) ∧
      req.authenticate server refreshToken random st =
        (.returned (.ok pp), { st with persistent := some pp })) ∨
    ∃ pending, req.authenticateStandard server random = .awaiting pending ∧
      req.authenticate server refreshToken random st = (.awaiting pending, st) := by
  unfold authenticate
  split
  · exact Or.inl ⟨_, rfl⟩
  · split
    · next htoken => exact Or.inr (Or.inl ⟨htoken, rfl⟩)
    · cases hprogress : req.authenticateStandard server random with
      | returned outcome =>
        cases outcome with
        | error resp => exact Or.inl ⟨resp, rfl⟩
        | ok pp => exact Or.inr (Or.inr (Or.inl ⟨pp, rfl, rfl⟩))
      | awaiting pending => exact Or.inr (Or.inr (Or.inr ⟨pending, rfl, rfl⟩))

theorem authenticate_granted {pp : PeerPersistent} (htoken : req.hasToken = false)
    (h : req.authenticate server refreshToken random st = (.returned (.ok pp), after)) :
    req.authenticateStandard server random = .returned (.ok pp) := by
  rcases req.authenticate_cases server refreshToken random st with
    ⟨resp, heq⟩ | ⟨htoken', -⟩ | ⟨pp', hpp, heq⟩ | ⟨pending, -, heq⟩
  · rw [h] at heq
    cases heq
  · rw [htoken] at htoken'
    cases htoken'
  · rw [h] at heq
    cases heq
    exact hpp
  · rw [h] at heq
    cases heq

theorem authenticate_awaiting {pending : PendingAuth}
    (h : req.authenticate server refreshToken random st = (.awaiting pending, after)) :
    after = st ∧ req.authenticateStandard server random = .awaiting pending := by
  rcases req.authenticate_cases server refreshToken random st with
    ⟨resp, heq⟩ | ⟨-, heq⟩ | ⟨pp, -, heq⟩ | ⟨pending', hpending, heq⟩
  · rw [h] at heq
    cases heq
  · rw [h] at heq
    cases heq
  · rw [h] at heq
    cases heq
  · rw [h] at heq
    cases heq
    exact ⟨rfl, hpending⟩

theorem authenticate_refused {resp : AuthResponse}
    (h : req.authenticate server refreshToken random st = (.returned (.error resp), after)) :
    after.tokens = st.tokens ∧ (st.persistent = none → after.persistent = none) := by
  rcases req.authenticate_cases server refreshToken random st with
    ⟨resp', heq⟩ | ⟨-, heq⟩ | ⟨pp, -, heq⟩ | ⟨pending, -, heq⟩
  · rw [h] at heq
    cases heq
    exact ⟨rfl, id⟩
  · rw [h] at heq
    obtain ⟨houtcome, hafter⟩ := Prod.mk.inj heq
    have htoken : req.authenticateToken refreshToken random st = (.error resp, after) :=
      Prod.ext (AuthProgress.returned.inj houtcome).symm hafter.symm
    exact authenticateToken_error htoken
  · rw [h] at heq
    cases heq
  · rw [h] at heq
    cases heq

end AuthRequest

namespace PendingAuth

variable {pending : PendingAuth} {result : PluginResult} {later after : AuthState}

theorem resume_ok {pp : PeerPersistent} (h : pending.resume result later = (.ok pp, after)) :
    result = some (.ok pp.userId) := by
  cases result with
  | none => cases h
  | some answer =>
    cases answer with
    | error e => cases h
    | ok userId =>
      cases h
      rfl

theorem resume_error {resp : AuthResponse}
    (h : pending.resume result later = (.error resp, after)) : after = later := by
  cases result with
  | none =>
    cases h
    rfl
  | some answer =>
    cases answer with
    | error e =>
      cases h
      rfl
    | ok userId => cases h

end PendingAuth

/-- Who is granted an identity, and what a failure leaves: an app that is neither weak nor anonymous
grants one only as a plugin of an allowed provider answers, and what fails changes nothing. -/
theorem authenticate_sound {otherName : UInt8 → String} (req : AuthRequest otherName)
    (server : AuthServer) (refreshToken : Bool) (random : AuthRandom) (st : AuthState) :
    (∀ pp after, req.hasToken = false →
      req.authenticate server refreshToken random st = (.returned (.ok pp), after) →
        ∃ params settings, req.Anonymous server random pp.userId params settings) ∧
    (∀ pending after, req.authenticate server refreshToken random st = (.awaiting pending, after) →
      after = st ∧ (∃ params settings, req.Vouched server pending.call params settings) ∧
      ∀ result later,
        (∀ pp after, pending.resume result later = (.ok pp, after) →
          result = some (.ok pp.userId)) ∧
        ∀ resp after, pending.resume result later = (.error resp, after) → after = later) ∧
    ∀ resp after, req.authenticate server refreshToken random st = (.returned (.error resp), after) →
      after.tokens = st.tokens ∧ (st.persistent = none → after.persistent = none) := by
  have hstandard := req.authenticateStandard_cases server random
  refine ⟨fun pp after htoken h => ?_, fun pending after h => ?_,
    fun resp after h => AuthRequest.authenticate_refused h⟩
  · rw [AuthRequest.authenticate_granted htoken h] at hstandard
    rcases hstandard with ⟨resp, hresp⟩ | ⟨pp', params, settings, hpp, hanonymous⟩ |
      ⟨pending, -, -, hpending, -⟩
    · cases hresp
    · cases hpp
      exact ⟨params, settings, hanonymous⟩
    · cases hpending
  · obtain ⟨hafter, hpending⟩ := AuthRequest.authenticate_awaiting h
    refine ⟨hafter, ?_, fun result later =>
      ⟨fun pp after => PendingAuth.resume_ok, fun resp after => PendingAuth.resume_error⟩⟩
    rw [hpending] at hstandard
    rcases hstandard with ⟨resp, hresp⟩ | ⟨pp, -, -, hpp, -⟩ |
      ⟨pending', params, settings, hpending', hvouched⟩
    · cases hresp
    · cases hpp
    · cases hpending'
      exact ⟨params, settings, hvouched⟩

end LuxonServer
