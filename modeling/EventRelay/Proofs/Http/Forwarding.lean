import EventRelay.Proofs.Backend.Placing
import EventRelay.Proofs.Http.Loading

namespace EventRelay.Http

/-!
# Requests that are put to the backend

Whatever a client writes, what the relay asks of the backend is the query of a
route and its decoded parameters.  Requests that ask for different things lead
to different paths at the backend, and none of them leads out of the base.
-/

open Backend (PlainBase Query)
open Config (RelayConfig)

/--
What a request asks of the backend: its route, and the query that holds its
decoded parameters, an id as the number that it stands for.
-/
def asked? (request : Request) : Option (Route × Query) := do
  let (route, parameters) ← Route.find? request.path
  let decoded ← parameters.mapM Route.decode?
  let query ← queryOf? route decoded
  some (route, query)

/--
Whether a relay with some base may send a request to a path of the backend
when it answers a request.
-/
def Reaches (base : String) (request : Request) (path : List Char) : Prop :=
  ∃ (server : Server) (network : Network) (exchange : Exchange)
      (after : Server),
    server.config.source.apiUrl = some base ∧
      server.handle? network request = some (exchange, after) ∧
        ∃ sent ∈ exchange.sent, Url.pathText sent.url.path = path

variable {config : RelayConfig} {network : Network} {request : Request}

private theorem sent_answerLogin (auth : Config.Auth) (request : Request) :
    (answerLogin auth request).sent = [] := by
  unfold answerLogin
  split
  · rfl
  · rfl
  · rfl
  · unfold answerToken
    split
    · rfl
    · split <;> rfl

private theorem sent_of_answerEvents?
    {exchange : Exchange}
    (answers : answerEvents? config = some exchange) :
    exchange.sent = [] := by
  obtain ⟨channel, -, answers⟩ := Option.bind_eq_some_iff.mp answers
  obtain rfl := Option.some.inj answers
  rfl

/-- What is sent for a route is sent for the query of its parameters. -/
theorem exists_query_of_answerQuery
    {route : Route}
    {parameters : List (List Char)}
    {sent : Outgoing}
    (isSent : sent ∈ (answerQuery config network route parameters).sent) :
    ∃ decoded query,
      parameters.mapM Route.decode? = some decoded ∧
        queryOf? route decoded = some query ∧
          sent ∈ (Backend.load network config.source query).sent := by
  unfold answerQuery at isSent
  split at isSent
  · cases isSent
  · next decoded decodes =>
      split at isSent
      · cases isSent
      · next query queried =>
          rw [sent_loadingExchange] at isSent
          exact ⟨decoded, query, decodes, queried, isSent⟩

/-- Whatever a route sends was sent for its query. -/
private theorem mem_sent_of_answerRoute?
    {route : Route}
    {parameters : List (List Char)}
    {exchange : Exchange}
    (answers :
      answerRoute? config network request route parameters = some exchange)
    {sent : Outgoing}
    (isSent : sent ∈ exchange.sent) :
    sent ∈ (answerQuery config network route parameters).sent := by
  cases route with
  | health | logout =>
      obtain rfl := Option.some.inj answers
      cases isSent
  | login =>
      obtain rfl := Option.some.inj answers
      rw [sent_answerLogin] at isSent
      cases isSent
  | events =>
      rw [sent_of_answerEvents? answers] at isSent
      cases isSent
  | _ =>
      obtain rfl := Option.some.inj answers
      exact isSent

private theorem mem_sent_of_answer?
    {route : Route}
    {parameters : List (List Char)}
    {exchange : Exchange}
    (answers :
      answer? config network request route parameters = some exchange)
    {sent : Outgoing}
    (isSent : sent ∈ exchange.sent) :
    sent ∈ (answerQuery config network route parameters).sent := by
  unfold answer? at answers
  split at answers
  · obtain rfl := Option.some.inj answers
    cases isSent
  · obtain ⟨whole, isWhole, answers⟩ := Option.bind_eq_some_iff.mp answers
    have sameSent : exchange.sent = whole.sent := by
      split at answers <;> obtain rfl := Option.some.inj answers <;> rfl
    exact mem_sent_of_answerRoute? isWhole (sameSent ▸ isSent)

/-- Whatever the server sends, it sends for what the request asks. -/
theorem exists_asked_of_handle?
    {server after : Server}
    {exchange : Exchange}
    (handles : server.handle? network request = some (exchange, after))
    {sent : Outgoing}
    (isSent : sent ∈ exchange.sent) :
    ∃ route query,
      asked? request = some (route, query) ∧
        sent ∈ (Backend.load network server.config.source query).sent := by
  unfold Server.handle? at handles
  split at handles
  · unfold Server.route? at handles
    split at handles
    · cases handles
      cases isSent
    · next route parameters found =>
        obtain ⟨answered, answers, handles⟩ :=
          Option.bind_eq_some_iff.mp handles
        cases handles
        obtain ⟨decoded, query, decodes, queried, isSent⟩ :=
          exists_query_of_answerQuery (mem_sent_of_answer? answers isSent)
        refine ⟨route, query, ?_, isSent⟩
        simp [asked?, found, decodes, queried]
  · cases handles
    cases isSent

/-- The route of a query. -/
def routeOf : Query → Route
  | .deployments =>
      .deployments
  | .deployment _ =>
      .deployment
  | .serviceDeployments _ _ =>
      .serviceDeployments
  | .containers =>
      .containers
  | .container _ =>
      .container
  | .serviceContainers _ _ _ =>
      .serviceContainers

/-- A query is asked at its own route only. -/
private theorem route_of_asked?
    {route : Route}
    {query : Query}
    (asks : asked? request = some (route, query)) :
    route = routeOf query := by
  obtain ⟨⟨found, parameters⟩, -, asks⟩ := Option.bind_eq_some_iff.mp asks
  obtain ⟨decoded, -, asks⟩ := Option.bind_eq_some_iff.mp asks
  obtain ⟨other, queried, asks⟩ := Option.bind_eq_some_iff.mp asks
  cases asks
  unfold queryOf? at queried
  split at queried
  · cases queried
    rfl
  · obtain ⟨id, -, rfl⟩ := Option.map_eq_some_iff.mp queried
    rfl
  · cases queried
    rfl
  · cases queried
    rfl
  · cases queried
    rfl
  · cases queried
    rfl
  · cases queried

/-- A request reaches the place of its query below a plain base. -/
private theorem path_of_reaches
    {base : PlainBase}
    {path : List Char}
    (reaches : Reaches base.text request path) :
    ∃ route query,
      asked? request = some (route, query) ∧ query.isAllowed = true ∧
        path = Url.pathText (.segments (base.segments ++ query.segments)) := by
  obtain ⟨server, network, exchange, after, configured, handles, sent, isSent,
    rfl⟩ := reaches
  obtain ⟨route, query, asks, isSent⟩ := exists_asked_of_handle? handles isSent
  obtain ⟨allowed, other, url, isBase, isAddress, samePath⟩ :=
    Backend.of_mem_sent isSent
  obtain rfl := Option.some.inj (configured.symm.trans isBase)
  rw [base.address_eq allowed] at isAddress
  obtain rfl := Except.ok.inj isAddress
  exact ⟨route, query, asks, allowed, congrArg Url.pathText samePath⟩

/--
Below a base of scheme, host, number and plain segments, the address of an
allowed query has the segments of the base and of the query as they are, and
requests with another route or other parameters go to other paths.
-/
theorem requests_are_kept_apart (base : PlainBase) :
    (∀ query : Query, query.isAllowed = true →
      Backend.address base.text query.path =
        .ok (base.origin.url.below (base.segments ++ query.segments))) ∧
      (∀ request path, Reaches base.text request path →
        ∃ route query,
          asked? request = some (route, query) ∧ query.isAllowed = true ∧
            path =
              Url.pathText (.segments (base.segments ++ query.segments))) ∧
      ∀ first second path,
        Reaches base.text first path → Reaches base.text second path →
          asked? first = asked? second := by
  refine ⟨fun query allowed => base.address_eq allowed,
    fun request path reaches => path_of_reaches reaches, ?_⟩
  intro first second path firstReaches secondReaches
  obtain ⟨route, query, asks, allowed, rfl⟩ := path_of_reaches firstReaches
  obtain ⟨otherRoute, other, asksOther, otherAllowed, samePath⟩ :=
    path_of_reaches secondReaches
  obtain rfl := base.query_eq_of_pathText allowed otherAllowed samePath
  rw [asks, asksOther, route_of_asked? asks, route_of_asked? asksOther]

/-- A base with dots in its segments, and two slashes at its end. -/
def dottedBase : PlainBase where
  origin :=
    { scheme := "http".toList
      location := "host:3003".toList
      url := ⟨"http".toList, [], none, some (.name "host".toList), some 3003,
        .segments [[]], none, none⟩
      isWeb := by decide
      isAuthority := by decide
      isUnpadded := by decide
      parses := by decide +kernel }
  segments := ["a..b".toList, "...".toList]
  slashes := 2
  arePlain := by decide

/-- The request of a client for a target. -/
def requestOf (target : String) : Request :=
  ⟨"GET", target.toList, [], []⟩

private theorem reaches_of_handle?
    (network : Network)
    {base : String}
    {path : List Char}
    (handles :
      (Server.handle? ⟨Backend.configuredWith base, .empty⟩ network
          request).map
          (·.1.sent.map (Url.pathText ·.url.path)) =
        some [path]) :
    Reaches base request path := by
  obtain ⟨⟨exchange, after⟩, handled, paths⟩ :=
    Option.map_eq_some_iff.mp handles
  have among : path ∈ exchange.sent.map (Url.pathText ·.url.path) :=
    paths ▸ List.mem_singleton_self path
  exact ⟨_, network, exchange, after, rfl, handled, List.mem_map.mp among⟩

/-- A name of three dots is no way out of a base, however it is written. -/
theorem three_dots_stay :
    let written := requestOf "/api/containers/..."
    let escaped := requestOf "/api/containers/%2E.."
    let path := "/a..b/.../container/state/...".toList
    Reaches dottedBase.text written path ∧
      Reaches dottedBase.text escaped path ∧
        (Query.container "...".toList).isAllowed = true ∧
          Backend.address dottedBase.text
              (Query.container "...".toList).path =
            .ok (dottedBase.origin.url.below
              (dottedBase.segments ++
                (Query.container "...".toList).segments)) ∧
            asked? written = asked? escaped := by
  intro written escaped path
  have writtenReaches : Reaches dottedBase.text written path :=
    reaches_of_handle? .unreachable (by decide +kernel)
  have escapedReaches : Reaches dottedBase.text escaped path :=
    reaches_of_handle? .unreachable (by decide +kernel)
  have allowed : (Query.container "...".toList).isAllowed = true := by
    decide
  obtain ⟨addresses, -, apart⟩ := requests_are_kept_apart dottedBase
  exact ⟨writtenReaches, escapedReaches, allowed, addresses _ allowed,
    apart written escaped path writtenReaches escapedReaches⟩

end EventRelay.Http
