import EventRelay.Backend.Loader

namespace EventRelay.Backend

/-!
# What decides the outcome of a query

Nine things may decide what becomes of a query.  Several of them can hold of
one query; the first one in the order of the table decides.
-/

open Http (Network Outgoing Received Status)

variable (network : Network) (source : Config.Source) (query : Query)

/-- The request that the configuration makes of a query, if it makes one. -/
def request? : Option Outgoing := do
  let base ← source.apiUrl
  let url ← (address base query.path).toOption
  (Outgoing.prepare url source.apiToken).toOption

/-- The status and the body that come back, if a request leads to an answer. -/
def heard? : Option (Status × Received) :=
  (request? source query).bind fun request =>
    match network.reply request with
    | .unanswered =>
        none
    | .answered status body =>
        some (status, body)

/-- The envelope in the body that comes back, if there is one. -/
def envelope? : Option (Envelope query.Answer) :=
  (heard? network source query).bind fun (_, body) =>
    body.whole?.bind (read? (Envelope query.Answer))

/-- What may decide the outcome of a query. -/
inductive Verdict where
  /-- A chosen name is no plain segment. -/
  | unsafeName
  /-- No address of the backend is configured. -/
  | unconfigured
  /-- No request can be made or sent, or it is not answered. -/
  | unheard
  /-- The backend does not know what was asked for. -/
  | missing
  /-- The backend turns the request down. -/
  | refused
  /-- What came back holds no envelope of the expected data. -/
  | undecodable
  /-- The envelope reports a failure. -/
  | failed
  /-- The envelope has no data. -/
  | empty
  /-- The envelope has data. -/
  | served
  deriving DecidableEq, Repr

namespace Verdict

/-- The place of a verdict in the table. -/
def place : Verdict → Nat
  | .unsafeName => 0
  | .unconfigured => 1
  | .unheard => 2
  | .missing => 3
  | .refused => 4
  | .undecodable => 5
  | .failed => 6
  | .empty => 7
  | .served => 8

/-- Whether what a verdict stands for holds, whatever else does. -/
def Holds : Verdict → Prop
  | .unsafeName =>
      query.isAllowed = false
  | .unconfigured =>
      source.apiUrl = none
  | .unheard =>
      heard? network source query = none
  | .missing =>
      ∃ body, heard? network source query = some (.notFound, body)
  | .refused =>
      ∃ status body,
        heard? network source query = some (status, body) ∧
          status.isSuccess = false
  | .undecodable =>
      envelope? network source query = none
  | .failed =>
      ∃ envelope,
        envelope? network source query = some envelope ∧
          envelope.success = false
  | .empty =>
      ∃ envelope,
        envelope? network source query = some envelope ∧
          envelope.data = none
  | .served =>
      ∃ envelope data,
        envelope? network source query = some envelope ∧
          envelope.data = some data

/-- Whether a verdict is the first in the table that holds. -/
structure Decides (verdict : Verdict) : Prop where
  holds : verdict.Holds network source query
  first : ∀ earlier : Verdict,
    earlier.place < verdict.place → ¬earlier.Holds network source query

/-- The status that a verdict is reported with. -/
def status : Verdict → Status
  | .unsafeName =>
      .notFound
  | .unconfigured =>
      .serviceUnavailable
  | .missing =>
      .notFound
  | .served =>
      .ok
  | _ =>
      .badGateway

/-- The requests that are sent if a verdict decides. -/
def sent : Verdict → List Outgoing
  | .unsafeName =>
      []
  | .unconfigured =>
      []
  | _ =>
      (request? source query).toList

/-- What a verdict says of the outcome. -/
def Yields (outcome : Except LoaderError query.Answer) : Verdict → Prop
  | .unsafeName =>
      outcome = .error .notFound
  | .unconfigured =>
      outcome = .error .notConfigured
  | .unheard =>
      ∃ reason, outcome = .error (.request reason)
  | .missing =>
      outcome = .error .notFound
  | .refused =>
      ∃ reason, outcome = .error (.request reason)
  | .undecodable =>
      ∃ reason, outcome = .error (.schema reason)
  | .failed =>
      ∃ envelope,
        envelope? network source query = some envelope ∧
          outcome =
            .error (.backend (envelope.error.getD Envelope.unspecified))
  | .empty =>
      outcome = .error (.backend Envelope.emptySuccess)
  | .served =>
      ∃ envelope data,
        envelope? network source query = some envelope ∧
          envelope.data = some data ∧ outcome = .ok data

private theorem place_injective {verdict other : Verdict}
    (same : verdict.place = other.place) :
    verdict = other := by
  cases verdict <;> cases other <;> first | rfl | cases same

/-- Whether no verdict before one in the table holds. -/
def IsReached (verdict : Verdict) : Prop :=
  ∀ earlier : Verdict,
    earlier.place < verdict.place → ¬earlier.Holds network source query

variable {network source query}

/-- A verdict that does not hold leaves the decision to the next one. -/
theorem IsReached.next
    {verdict next : Verdict}
    (reached : verdict.IsReached network source query)
    (fails : ¬verdict.Holds network source query)
    (follows : next.place = verdict.place + 1) :
    next.IsReached network source query := by
  intro earlier before
  rw [follows] at before
  rcases Nat.lt_succ_iff_lt_or_eq.mp before with further | same
  · exact reached earlier further
  · rw [place_injective same]
    exact fails

/-- Only one verdict decides. -/
theorem Decides.unique
    {verdict other : Verdict}
    (decides : verdict.Decides network source query)
    (decidesToo : other.Decides network source query) :
    verdict = other := by
  rcases Nat.lt_trichotomy verdict.place other.place with
    before | same | after
  · exact absurd decides.holds (decidesToo.first verdict before)
  · exact place_injective same
  · exact absurd decidesToo.holds (decides.first other after)

end Verdict

section

variable {network source query}

private theorem exists_reason_of_address
    {base : String}
    {path : List Char}
    {error : LoaderError}
    (fails : address base path = .error error) :
    ∃ reason, error = .request reason := by
  simp only [address] at fails
  split at fails
  · cases fails
  · cases fails
    exact ⟨_, rfl⟩

private theorem queryAddress_eq_address
    (allowed : query.isAllowed = true)
    {base : String}
    (configured : source.apiUrl = some base) :
    queryAddress source query = address base query.path := by
  simp [queryAddress, allowed, configured]

/-- A query that leads to no request fails with a reason. -/
theorem load_of_request?_eq_none
    (network : Network)
    (allowed : query.isAllowed = true)
    {base : String}
    (configured : source.apiUrl = some base)
    (asks : request? source query = none) :
    (load network source query).sent = [] ∧
      ∃ reason,
        (load network source query).outcome = .error (.request reason) := by
  rw [load, queryAddress_eq_address allowed configured]
  cases joins : address base query.path with
  | error error =>
      obtain ⟨reason, rfl⟩ := exists_reason_of_address joins
      exact ⟨rfl, reason, rfl⟩
  | ok url =>
      cases prepares : Outgoing.prepare url source.apiToken with
      | error error =>
          simp [prepares, Loading.failed]
      | ok request =>
          simp [request?, configured, joins, prepares, Except.toOption] at asks

/-- A request is sent, and its reply decides. -/
theorem load_of_request?_eq_some
    (network : Network)
    (allowed : query.isAllowed = true)
    {request : Outgoing}
    (asks : request? source query = some request) :
    (load network source query).sent = [request] ∧
      (load network source query).outcome =
        outcomeOfReply query.Answer request.url (network.reply request) := by
  cases configured : source.apiUrl with
  | none =>
      simp [request?, configured] at asks
  | some base =>
  rw [load, queryAddress_eq_address allowed configured]
  cases joins : address base query.path with
  | error error =>
      simp [request?, configured, joins, Except.toOption] at asks
  | ok url =>
      cases prepares : Outgoing.prepare url source.apiToken with
      | error error =>
          simp [request?, configured, joins, prepares, Except.toOption] at asks
      | ok prepared =>
          simp only [request?, configured, joins, prepares, Except.toOption,
            Option.bind_eq_bind, Option.bind_some, Option.some.injEq] at asks
          subst asks
          simp [prepares]

/-- An answer that came back is taken for the outcome that it means. -/
theorem outcome_of_heard?
    (allowed : query.isAllowed = true)
    {status : Status}
    {body : Received}
    (heard : heard? network source query = some (status, body)) :
    ∃ url,
      (load network source query).outcome =
        outcomeOfReply query.Answer url (.answered status body) := by
  obtain ⟨request, asks, replies⟩ := Option.bind_eq_some_iff.mp heard
  refine ⟨request.url, ?_⟩
  rw [(load_of_request?_eq_some network allowed asks).2]
  split at replies
  · cases replies
  · next isReply =>
      obtain ⟨rfl, rfl⟩ := Prod.mk.inj (Option.some.inj replies)
      rw [isReply]

/-- An envelope that came back decides. -/
private theorem exists_decides_of_envelope?
    (reached : Verdict.failed.IsReached network source query)
    {envelope : Envelope query.Answer}
    (isEnvelope : envelope? network source query = some envelope) :
    ∃ verdict : Verdict,
      verdict.Decides network source query ∧
        verdict.sent source query = (request? source query).toList ∧
          verdict.Yields network source query
            (envelope.intoData.mapError .backend) := by
  cases succeeds : envelope.success with
  | false =>
      refine ⟨.failed, ⟨⟨envelope, isEnvelope, succeeds⟩, reached⟩, rfl,
        envelope, isEnvelope, ?_⟩
      simp only [Envelope.intoData, succeeds]
      rfl
  | true =>
  have successful : Verdict.empty.IsReached network source query :=
    reached.next (by simp [Verdict.Holds, isEnvelope, succeeds]) rfl
  cases content : envelope.data with
  | none =>
      refine ⟨.empty, ⟨⟨envelope, isEnvelope, content⟩, successful⟩, rfl, ?_⟩
      simp only [Verdict.Yields, Envelope.intoData, succeeds, content]
      rfl
  | some data =>
      have filled : Verdict.served.IsReached network source query :=
        successful.next (by simp [Verdict.Holds, isEnvelope, content]) rfl
      refine ⟨.served, ⟨⟨envelope, data, isEnvelope, content⟩, filled⟩, rfl,
        envelope, data, isEnvelope, content, ?_⟩
      simp only [Envelope.intoData, succeeds, content]
      rfl

/-- An answer that came back decides. -/
private theorem exists_decides_of_heard?
    (reached : Verdict.missing.IsReached network source query)
    {status : Status}
    {body : Received}
    (heard : heard? network source query = some (status, body))
    (url : Url) :
    ∃ verdict : Verdict,
      verdict.Decides network source query ∧
        verdict.sent source query = (request? source query).toList ∧
          verdict.Yields network source query
            (outcomeOfReply query.Answer url (.answered status body)) := by
  by_cases isMissing : status = .notFound
  · exact ⟨.missing, ⟨⟨body, isMissing ▸ heard⟩, reached⟩, rfl,
      if_pos isMissing⟩
  have known : Verdict.refused.IsReached network source query :=
    reached.next (by simp [Verdict.Holds, heard, isMissing]) rfl
  cases isSuccess : status.isSuccess with
  | false =>
      refine ⟨.refused, ⟨⟨status, body, heard, isSuccess⟩, known⟩, rfl, ?_⟩
      simp [outcomeOfReply, Verdict.Yields, isMissing, isSuccess]
  | true =>
  have accepted : Verdict.undecodable.IsReached network source query :=
    known.next (by simp [Verdict.Holds, heard, isSuccess]) rfl
  have isEnvelope : envelope? network source query =
      body.whole?.bind (read? (Envelope query.Answer)) := by
    rw [envelope?, heard]
    rfl
  cases decodes : body.whole?.bind (read? (Envelope query.Answer)) with
  | none =>
      rw [decodes] at isEnvelope
      refine ⟨.undecodable, ⟨isEnvelope, accepted⟩, rfl, ?_⟩
      simp [outcomeOfReply, Verdict.Yields, isMissing, isSuccess, decodes]
  | some envelope =>
      rw [decodes] at isEnvelope
      have decoded : Verdict.failed.IsReached network source query :=
        accepted.next (by simp [Verdict.Holds, isEnvelope]) rfl
      have outcome :
          outcomeOfReply query.Answer url (.answered status body) =
            envelope.intoData.mapError .backend := by
        simp [outcomeOfReply, isMissing, isSuccess, decodes]
      rw [outcome]
      exact exists_decides_of_envelope? decoded isEnvelope

end

/--
Some verdict decides: its requests are sent, and the outcome is as it says.
-/
theorem exists_decides :
    ∃ verdict : Verdict,
      verdict.Decides network source query ∧
        (load network source query).sent = verdict.sent source query ∧
          verdict.Yields network source query
            (load network source query).outcome := by
  have start : Verdict.unsafeName.IsReached network source query :=
    nofun
  cases allowed : query.isAllowed with
  | false =>
      refine ⟨.unsafeName, ⟨allowed, start⟩, ?_⟩
      simp [load, queryAddress, allowed, Loading.failed, Verdict.sent,
        Verdict.Yields]
  | true =>
  have safe : Verdict.unconfigured.IsReached network source query :=
    start.next (by simp [Verdict.Holds, allowed]) rfl
  cases configured : source.apiUrl with
  | none =>
      refine ⟨.unconfigured, ⟨configured, safe⟩, ?_⟩
      simp [load, queryAddress, allowed, configured, Loading.failed,
        Verdict.sent, Verdict.Yields]
  | some base =>
  have addressed : Verdict.unheard.IsReached network source query :=
    safe.next (by simp [Verdict.Holds, configured]) rfl
  cases asks : request? source query with
  | none =>
      have unheard : heard? network source query = none := by
        rw [heard?, asks]
        rfl
      obtain ⟨nothingSent, reason, failed⟩ :=
        load_of_request?_eq_none network allowed configured asks
      refine ⟨.unheard, ⟨unheard, addressed⟩, ?_, reason, failed⟩
      simp [nothingSent, Verdict.sent, asks]
  | some request =>
  obtain ⟨isSent, isOutcome⟩ :=
    load_of_request?_eq_some network allowed asks
  rw [isSent, isOutcome]
  cases replies : network.reply request with
  | unanswered =>
      have unheard : heard? network source query = none := by
        simp [heard?, asks, replies]
      refine ⟨.unheard, ⟨unheard, addressed⟩, ?_, _, rfl⟩
      simp [Verdict.sent, asks]
  | answered status body =>
      have heard : heard? network source query = some (status, body) := by
        simp [heard?, asks, replies]
      have answered : Verdict.missing.IsReached network source query :=
        addressed.next (by simp [Verdict.Holds, heard]) rfl
      obtain ⟨verdict, decides, areSent, yields⟩ :=
        exists_decides_of_heard? answered heard request.url
      refine ⟨verdict, decides, ?_, yields⟩
      rw [areSent, asks]
      rfl

end EventRelay.Backend
