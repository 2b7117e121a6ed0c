import EventRelay.Proofs.Config.Accepting
import EventRelay.Proofs.Http.Gate
import EventRelay.Proofs.Http.Returning

namespace EventRelay.Http

/-!
# Logging in

A login with the secret is answered with the session cookie.  A client that
sends the cookie back may pass the gate if and only if the secret survives as
the value of a cookie.  A valid configuration may hold any other secret too,
and then the login opens nothing.
-/

open Json (Token)

/-- A request that logs in with a token. -/
structure LogsIn (login : Request) (token : String) : Prop where
  posts : login.method = "POST"
  path : login.path = "/login".toList
  token : Login.read login.headers login.body = .token token

namespace Server

/--
A login is answered with a cookie, and whoever sends back its name and value
may pass on every path that is not public.
-/
def LoginOpensGate (server : Server) (network : Network) (login : Request) :
    Prop :=
  ∃ exchange after cookie,
    server.handle? network login = some (exchange, after) ∧
      exchange.response.status = .noContent ∧
        exchange.response.cookie = some cookie ∧
          ∀ request : Request,
            request.path ∉
                ["/health".toList, "/login".toList, "/logout".toList] →
              request.headers.all "cookie" = [Cookie.nameAndValue cookie] →
                Gate.admits server.config.auth request = true

variable {server : Server} {login : Request} {secret : String}

/-- The secret is a token that is answered with the session cookie. -/
private theorem answerToken_secret
    {auth : Config.Auth}
    (secured : auth.dashboardSecret = some secret) :
    answerToken auth secret =
      .plain (.keeping (Cookie.header? auth secret auth.cookieMaxAgeSecs)) := by
  have agrees : Gate.textsAgree secret.toList secret.toList = true :=
    Gate.agree_iff.mpr rfl
  rw [answerToken, secured]
  exact if_pos agrees

/-- A login is let through to its route, and counted. -/
theorem handle?_login
    (logsIn : LogsIn login secret)
    (secured : server.config.auth.dashboardSecret = some secret)
    (network : Network) :
    ∃ after,
      server.handle? network login =
        some
          (.plain
            (.keeping
              (Cookie.header? server.config.auth secret
                server.config.auth.cookieMaxAgeSecs)),
            after) := by
  have isPublic : login.path ∈ Gate.publicPaths := by
    rw [logsIn.path]
    decide
  have found : Route.find? login.path = some (.login, []) := by
    rw [logsIn.path]
    decide
  have known : login.method ∈ Route.login.methods := by
    rw [logsIn.posts]
    decide
  have wantsBody : login.wantsHeadersOnly = false := by
    rw [Request.wantsHeadersOnly, logsIn.posts]
    decide
  have answered :
      answer? server.config network login .login [] =
        some (answerToken server.config.auth secret) := by
    simp [answer?, answerRoute?, answerLogin, known, wantsBody, logsIn.token]
  rw [handle?_of_admits (Gate.admits_of_public isPublic _), route?, found]
  simp only [answered, answerToken_secret secured]
  exact ⟨_, rfl⟩

/-- A cookie that could not be written is not set. -/
private theorem cookie_keeping (cookie : Option HeaderValue) :
    (Exchange.plain (.keeping cookie)).response.cookie = cookie := by
  cases cookie <;> rfl

/-- The cookie of the secret may pass if and only if the secret survives. -/
private theorem admits_cookie_iff
    {auth : Config.Auth}
    {request : Request}
    (secured : auth.dashboardSecret = some secret)
    (isPlainName : Text.isPlainName auth.cookieName.toList = true)
    (isPrivate : request.path ∉ Gate.publicPaths)
    {maxAgeSecs : Nat}
    (sent : request.headers.all "cookie" =
      [Cookie.nameAndValue
        (Text.Utf8.encode (Cookie.text auth secret maxAgeSecs))]) :
    Gate.admits auth request = true ↔ Cookie.Survives secret.toList := by
  rw [Gate.admits_iff secured isPrivate, Gate.CarriesSecret, sent,
    Cookie.nameAndValue_encode_text isPlainName,
    ← Cookie.firstValue_iff_survives isPlainName]
  constructor
  · rintro ⟨value, found, encoded⟩
    obtain rfl : value = secret.toList := Text.Utf8.encode_inj.mp encoded
    exact found
  · intro found
    exact ⟨secret.toList, found, rfl⟩

/--
A login opens the gate if and only if the secret is one that comes back as it
was sent: printable ASCII without a semicolon or a blank at its end.
-/
theorem login_opens_gate_iff
    (valid : Config.isValid server.config = true)
    (secured : server.config.auth.dashboardSecret = some secret)
    (logsIn : LogsIn login secret)
    (network : Network) :
    LoginOpensGate server network login ↔ Cookie.Survives secret.toList := by
  have isPlainName :
      Text.isPlainName server.config.auth.cookieName.toList = true :=
    (Config.isValid_iff_accepted.mp valid).cookieName
  obtain ⟨after, answered⟩ := handle?_login logsIn secured network
  constructor
  · rintro ⟨exchange, after', cookie, handled, -, set, opens⟩
    obtain ⟨rfl, -⟩ :=
      Prod.mk.inj (Option.some.inj (answered.symm.trans handled))
    rw [cookie_keeping, Cookie.header?_eq_some_iff isPlainName] at set
    obtain ⟨-, rfl⟩ := set
    -- One private path is as good as any other.
    let request (cookie : HeaderValue) : Request :=
      ⟨"GET", "/events".toList, [("cookie", cookie)], []⟩
    have isPrivate (cookie : HeaderValue) :
        (request cookie).path ∉ Gate.publicPaths := by
      change pathOf "/events".toList ∉ Gate.publicPaths
      decide
    have sends (cookie : HeaderValue) :
        (request cookie).headers.all "cookie" = [cookie] :=
      rfl
    exact (admits_cookie_iff secured isPlainName (isPrivate _) (sends _)).mp
      (opens _ (isPrivate _) (sends _))
  · intro survives
    have writable : ∀ character ∈ secret.toList,
        HeaderValue.IsWritable character :=
      fun character member => (survives.printable character member).isWritable
    rw [(Cookie.header?_eq_some_iff isPlainName).mpr ⟨writable, rfl⟩]
      at answered
    refine ⟨_, after, _, answered, rfl, rfl, fun request isPrivate sent => ?_⟩
    exact (admits_cookie_iff secured isPlainName isPrivate sent).mpr survives

/-- A relay that is closed with a secret. -/
def securedWith (secret : String) : Server :=
  ⟨{ Config.RelayConfig.standard with
      auth.dashboardSecret := some secret }, .empty⟩

/-- The login of a client with a token in which nothing is to be escaped. -/
def loginWith (token : String) : Request :=
  ⟨"POST", "/login".toList,
    [("content-type", Text.Utf8.bytesOf "application/json")],
    Text.Utf8.encode
      ("\x7b\"token\":\"".toList ++ token.toList ++ "\"\x7d".toList)⟩

private theorem logsIn_loginWith
    {token : String}
    (tokens : Token.ofBytes (loginWith token).body =
      [.openObject, .text (some "token"), .colon, .text (some token),
        .closeObject]) :
    LogsIn (loginWith token) token := by
  have isJson : Login.isJson (loginWith token).headers = true := by
    change Login.isJson
      [("content-type", Text.Utf8.bytesOf "application/json")] = true
    decide +kernel
  refine ⟨rfl, rfl, ?_⟩
  rw [Login.read, if_pos isJson, tokens]
  simp [Login.readDocument, Login.readMembers,
    Login.readMembers.continueMembers, Login.finish]

/-- A secret of letters and digits opens the gate. -/
theorem loginOpensGate_securedWith :
    (Config.isValid (securedWith "s3cret").config = true ∧
        (securedWith "s3cret").config.auth.dashboardSecret = some "s3cret" ∧
          LogsIn (loginWith "s3cret") "s3cret") ∧
      LoginOpensGate (securedWith "s3cret") .unreachable
        (loginWith "s3cret") := by
  have valid : Config.isValid (securedWith "s3cret").config = true := by
    decide +kernel
  have logsIn : LogsIn (loginWith "s3cret") "s3cret" :=
    logsIn_loginWith (by decide +kernel)
  have survives : Cookie.Survives "s3cret".toList := by
    refine ⟨HeaderValue.forall_mem_of_all (by decide), by decide, ?_⟩
    intro character isLast
    obtain rfl : 't' = character := Option.some.inj isLast
    decide
  exact ⟨⟨valid, rfl, logsIn⟩,
    (login_opens_gate_iff valid rfl logsIn .unreachable).mpr survives⟩

/--
A valid configuration may hold a secret with a semicolon.  The login is
answered with a cookie, of which a part comes back and may not pass.
-/
theorem refused_with_semicolon :
    let server := securedWith "s3cret;2024"
    let login := loginWith "s3cret;2024"
    let sentBack := Text.Utf8.bytesOf "relay_session=s3cret"
    Config.isValid server.config = true ∧
      LogsIn login "s3cret;2024" ∧
        ∃ after cookie,
          server.handle? .unreachable login =
              some (.plain (.keeping (some cookie)), after) ∧
            Cookie.nameAndValue cookie = sentBack ∧
              Gate.admits server.config.auth
                  ⟨"GET", "/api/deployments".toList, [("cookie", sentBack)],
                    []⟩ =
                false := by
  intro server login sentBack
  have valid : Config.isValid server.config = true := by
    decide +kernel
  have logsIn : LogsIn login "s3cret;2024" :=
    logsIn_loginWith (by decide +kernel)
  have secured : server.config.auth.dashboardSecret = some "s3cret;2024" :=
    rfl
  obtain ⟨after, answered⟩ := handle?_login logsIn secured .unreachable
  have written :
      Cookie.header? server.config.auth "s3cret;2024"
          server.config.auth.cookieMaxAgeSecs =
        some
          (Text.Utf8.encode
            (Cookie.text server.config.auth "s3cret;2024"
              server.config.auth.cookieMaxAgeSecs)) := by
    decide +kernel
  rw [written] at answered
  exact ⟨valid, logsIn, after, _, answered, by decide +kernel,
    by decide +kernel⟩

end Server

end EventRelay.Http
