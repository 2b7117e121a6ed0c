import EventRelay.Http.Server
import EventRelay.Proofs.Http.Cookie
import EventRelay.Proofs.Text.Utf8
import Mathlib.Data.List.Forall2

namespace EventRelay.Http

/-!
# Who passes the gate

Comparing all bytes without an early end still decides equality.  So the gate
is passed without a secret, on the public paths, and with a session cookie
whose value is the secret; every other request is turned down before a route
is looked for, and leaves nothing behind.
-/

namespace Gate

/-- Differences are collected bit by bit, and none of them is lost. -/
private theorem foldl_eq_zero_iff (pairs : List (UInt8 × UInt8)) (seen : UInt8) :
    pairs.foldl (fun seen (a, b) => seen ||| (a ^^^ b)) seen = 0 ↔
      seen = 0 ∧ ∀ pair ∈ pairs, pair.1 = pair.2 := by
  induction pairs generalizing seen with
  | nil =>
      simp
  | cons pair pairs inductionHypothesis =>
      rw [List.foldl_cons, inductionHypothesis, UInt8.or_eq_zero_iff,
        UInt8.xor_eq_zero_iff, List.forall_mem_cons, and_assoc]

/-- The comparison without early exit is equality. -/
theorem agree_iff {left right : List UInt8} :
    agree left right = true ↔ left = right := by
  rw [agree, Bool.and_eq_true, beq_iff_eq, beq_iff_eq, foldl_eq_zero_iff]
  -- The items at every place agree, which is equality of lists item by item.
  rw [← List.forall₂_eq_eq_eq, List.forall₂_iff_zip]
  simp only [true_and, Prod.forall]

/--
The session cookie of a request has the bytes of the secret: the first pair
with its name counts, in the order of the headers.
-/
def CarriesSecret (auth : Config.Auth) (secret : String) (headers : Headers) :
    Prop :=
  ∃ value,
    Cookie.FirstValue (headers.all "cookie") auth.cookieName.toList value ∧
      Text.Utf8.encode value = Text.Utf8.bytesOf secret

/-- A request has a session exactly when it carries the secret. -/
private theorem hasSession_iff
    {auth : Config.Auth}
    {secret : String}
    {headers : Headers} :
    hasSession auth secret headers = true ↔
      CarriesSecret auth secret headers := by
  simp only [CarriesSecret, ← Cookie.find?_eq_some_iff]
  rw [hasSession]
  cases Cookie.find? (headers.all "cookie") auth.cookieName with
  | none =>
      simp
  | some value =>
      simp [textsAgree, agree_iff, Text.Utf8.bytesOf]

/-- Without a secret, every request is admitted. -/
private theorem admits_of_open
    {auth : Config.Auth}
    (unsecured : auth.dashboardSecret = none)
    (request : Request) :
    admits auth request = true := by
  rw [admits, unsecured]

/-- Public paths are admitted whatever the secret. -/
theorem admits_of_public
    {request : Request}
    (isPublic : request.path ∈ publicPaths)
    (auth : Config.Auth) :
    admits auth request = true := by
  rw [admits]
  split
  · rfl
  · rw [List.contains_iff_mem.mpr isPublic, Bool.true_or]

/-- A private path is admitted exactly when the request carries the secret. -/
theorem admits_iff
    {auth : Config.Auth}
    {secret : String}
    {request : Request}
    (secured : auth.dashboardSecret = some secret)
    (isPrivate : request.path ∉ publicPaths) :
    admits auth request = true ↔
      CarriesSecret auth secret request.headers := by
  have notPublic : publicPaths.contains request.path = false :=
    eq_false_of_ne_true (mt List.contains_iff_mem.mp isPrivate)
  rw [admits, secured]
  simp only [notPublic, Bool.false_or, hasSession_iff]

end Gate

namespace Server

variable {server : Server} {network : Network} {request : Request}

theorem handle?_of_admits
    (admitted : Gate.admits server.config.auth request = true) :
    server.handle? network request = server.route? network request := by
  rw [handle?, if_pos admitted]

/-- The answer to a request that may not pass. -/
def refusal : Exchange where
  response := .ofStatus .unauthorized
  sent := []
  subscription := none
  log := [⟨.debug, "Rejected request without valid session", []⟩]

/-- A request that is not admitted is refused and changes nothing. -/
private theorem handle?_of_not_admits
    (refused : Gate.admits server.config.auth request ≠ true) :
    server.handle? network request = some (refusal, server) := by
  rw [handle?, if_neg refused]
  rfl

/--
A request reaches the routes without a secret, on a public path, or with the
secret in its session cookie.  Any other request is unauthorized, whatever its
path is: nothing is sent, no session starts, and the server is as it was.
-/
theorem gate_decides (server : Server) (network : Network) (request : Request) :
    (server.config.auth.dashboardSecret = none →
        server.handle? network request = server.route? network request) ∧
      (request.path ∈
          ["/health".toList, "/login".toList, "/logout".toList] →
        server.handle? network request = server.route? network request) ∧
      ∀ secret,
        server.config.auth.dashboardSecret = some secret →
        request.path ∉
          ["/health".toList, "/login".toList, "/logout".toList] →
        (Gate.CarriesSecret server.config.auth secret request.headers →
            server.handle? network request =
              server.route? network request) ∧
          (¬Gate.CarriesSecret server.config.auth secret request.headers →
            server.handle? network request =
              some
                (⟨.ofStatus .unauthorized, [], none,
                    [⟨.debug, "Rejected request without valid session", []⟩]⟩,
                  server)) := by
  refine ⟨fun unsecured => ?_, fun isPublic => ?_, ?_⟩
  · exact handle?_of_admits (Gate.admits_of_open unsecured request)
  · exact handle?_of_admits (Gate.admits_of_public isPublic _)
  · intro secret secured isPrivate
    have decides := Gate.admits_iff secured isPrivate
    refine ⟨fun carries => ?_, fun lacks => ?_⟩
    · exact handle?_of_admits (decides.mpr carries)
    · exact handle?_of_not_admits (mt decides.mp lacks)

/-- Of two pairs with the name, the one in the earlier header decides. -/
theorem gate_decides_by_first_pair :
    let server : Server :=
      ⟨{ Config.RelayConfig.standard with
          auth.dashboardSecret := some "s3cret" }, .empty⟩
    let request (cookies : List String) : Request :=
      ⟨"GET", "/events".toList,
        cookies.map fun cookie => ("cookie", Text.Utf8.bytesOf cookie), []⟩
    let admitted := request ["theme=dark; relay_session=s3cret"]
    let shadowed := request ["relay_session=old", "relay_session=s3cret"]
    server.handle? .unreachable admitted =
        server.route? .unreachable admitted ∧
      server.handle? .unreachable shadowed = some (refusal, server) := by
  intro server request admitted shadowed
  have isPrivate (cookies : List String) :
      (request cookies).path ∉
        ["/health".toList, "/login".toList, "/logout".toList] := by
    change pathOf "/events".toList ∉ _
    decide
  have carries :
      Gate.CarriesSecret server.config.auth "s3cret" admitted.headers :=
    Gate.hasSession_iff.mp (by decide +kernel)
  have lacks :
      ¬Gate.CarriesSecret server.config.auth "s3cret" shadowed.headers :=
    mt Gate.hasSession_iff.mpr (by decide +kernel)
  exact
    ⟨((gate_decides server .unreachable admitted).2.2 "s3cret" rfl
        (isPrivate _)).1 carries,
      ((gate_decides server .unreachable shadowed).2.2 "s3cret" rfl
        (isPrivate _)).2 lacks⟩

end Server

end EventRelay.Http
