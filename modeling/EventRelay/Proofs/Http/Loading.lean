import EventRelay.Http.Server
import EventRelay.Proofs.Backend.Repeating
import EventRelay.Proofs.Backend.Verdicts

namespace EventRelay.Http

/-!
# Answers to queries

The first thing in the table of verdicts that holds decides the status of the
answer.  The body of the answer is an envelope itself, of the same data or of
the text of the error, so that a relay can be the backend of a relay.
-/

open Backend (Document Envelope LoaderError Loading Query Rewritable Verdict)
open Config (RelayConfig)
open Json (HasWholeNumbers Number Tree)
open Text.Utf8 (bytesOf)

/--
Whether the data of an outcome, if it has any, is without floating-point
numbers.
-/
def IsWithoutReals [Document α] (outcome : Except LoaderError α) : Prop :=
  ∀ data, outcome = .ok data →
    (Document.toValue data).EachNumber Number.IsWhole

/--
Whether a body is read as an outcome: as its data, or as the text of its
error.
-/
def Carries [Document α] (body : Body) (outcome : Except LoaderError α) :
    Prop :=
  ∃ text envelope,
    body = .text text ∧
      Backend.read? (Envelope α) (bytesOf text) = some envelope ∧
        envelope.intoData = outcome.mapError LoaderError.message

/-- A failed loading is answered with its error. -/
private theorem carries_of_error
    [Document α]
    {loading : Loading α}
    {error : LoaderError}
    (fails : loading.outcome = .error error) :
    Carries (loadingExchange loading).response.body loading.outcome := by
  rw [loadingExchange, fails]
  exact ⟨_, _, rfl, Envelope.read?_failureText error.message, rfl⟩

variable {config : RelayConfig} {network : Network} {query : Query}

/-- Data that came in an envelope is sent on in an envelope. -/
theorem carries_of_ok
    {loading : Loading query.Answer}
    {envelope : Envelope query.Answer}
    {data : query.Answer}
    (decodes : Backend.envelope? network config.source query = some envelope)
    (isData : envelope.data = some data)
    (succeeds : loading.outcome = .ok data)
    (whole : (Document.toValue data).EachNumber Number.IsWhole) :
    Carries (loadingExchange loading).response.body loading.outcome := by
  obtain ⟨⟨status, body⟩, -, reads⟩ := Option.bind_eq_some_iff.mp decodes
  obtain ⟨bytes, -, reads⟩ := Option.bind_eq_some_iff.mp reads
  rw [loadingExchange, succeeds]
  exact ⟨_, _, rfl,
    Envelope.read?_ofData (Rewritable.answer query).rereads
      (Rewritable.answer query).present reads isData whole, rfl⟩

/-- Data from a body with whole numbers is without floating-point numbers. -/
theorem isWithoutReals_of_served
    {status : Status}
    {bytes : List UInt8}
    {outcome : Except LoaderError query.Answer}
    (heard :
      Backend.heard? network config.source query = some (status, ⟨bytes, true⟩))
    (whole : HasWholeNumbers bytes)
    (yields : Verdict.served.Yields network config.source query outcome) :
    IsWithoutReals outcome := by
  obtain ⟨envelope, data, decodes, isData, rfl⟩ := yields
  rintro _ ⟨⟩
  rw [Backend.envelope?, heard] at decodes
  have reads : Backend.read? (Envelope query.Answer) bytes = some envelope :=
    decodes
  obtain ⟨tree, isTree, readsTree⟩ := Option.bind_eq_some_iff.mp reads
  obtain ⟨inner, part, -, each, readsPart⟩ :=
    Envelope.exists_of_data (Tree.isWhole_of_ofBytes? whole isTree) readsTree
      isData
  exact (Rewritable.answer query).carries each readsPart

/-- The verdict decides the status of the answer. -/
private theorem status_of_yields
    {verdict : Verdict}
    {loading : Loading query.Answer}
    (yields : verdict.Yields network config.source query loading.outcome) :
    (loadingExchange loading).response.status = verdict.status := by
  cases verdict with
  | unsafeName | unconfigured | missing | empty =>
      rw [loadingExchange, yields]
      rfl
  | unheard | refused | undecodable =>
      obtain ⟨reason, fails⟩ := yields
      rw [loadingExchange, fails]
      rfl
  | failed =>
      obtain ⟨envelope, -, fails⟩ := yields
      rw [loadingExchange, fails]
      rfl
  | served =>
      obtain ⟨envelope, data, -, -, succeeds⟩ := yields
      rw [loadingExchange, succeeds]
      rfl

/-- The response that data is answered with. -/
def served [Document α] (data : α) : Response :=
  .json .ok (Backend.write (Envelope.ofData data))

/-- A loading that succeeds is answered with the data. -/
private theorem response_of_ok
    [Document α]
    {loading : Loading α}
    {data : α}
    (succeeds : loading.outcome = .ok data) :
    (loadingExchange loading).response = served data := by
  rw [loadingExchange, succeeds]
  rfl

theorem sent_loadingExchange [Document α] (loading : Loading α) :
    (loadingExchange loading).sent = loading.sent := by
  unfold loadingExchange
  split <;> rfl

/-- Whether the answer that a relay hears to a query is a given response. -/
def Hears (network : Network) (config : RelayConfig) (query : Query)
    (response : Response) : Prop :=
  ∃ text,
    response.body = .text text ∧
      Backend.heard? network config.source query =
        some (response.status, ⟨bytesOf text, true⟩)

/-- Data that is heard from a relay is the data that the relay heard. -/
theorem outcome_of_hears
    (allowed : query.isAllowed = true)
    {data : query.Answer}
    (carries : Carries (served data).body (.ok data))
    (hears : Hears network config query (served data)) :
    (Backend.load network config.source query).outcome = .ok data := by
  obtain ⟨text, isText, heard⟩ := hears
  obtain ⟨other, envelope, isOther, reads, isData⟩ := carries
  obtain rfl := Body.text.inj (isText.symm.trans isOther)
  obtain ⟨url, outcome⟩ := Backend.outcome_of_heard? allowed heard
  have intoData : envelope.intoData = .ok data := isData
  have decodes :
      (Received.mk (bytesOf text) true).whole?.bind
          (Backend.read? (Envelope query.Answer)) =
        some envelope :=
    reads
  have found : (served data).status ≠ .notFound :=
    (by decide : Status.ok ≠ .notFound)
  have isSuccess : (served data).status.isSuccess = true :=
    rfl
  rw [outcome]
  simp only [Backend.outcomeOfReply, if_neg found, isSuccess, decodes,
    intoData]
  rfl

/--
The answer to a query reports what became of it: a relay whose backend gives
this answer hears the same data, or the text of the error.
-/
structure Reports (exchange : Exchange) (network : Network)
    (config : RelayConfig) (query : Query) (verdict : Verdict)
    (outcome : Except LoaderError query.Answer) : Prop where
  yields : verdict.Yields network config.source query outcome
  sent : exchange.sent = verdict.sent config.source query
  status : exchange.response.status = verdict.status
  body : IsWithoutReals outcome → Carries exchange.response.body outcome

private theorem reports_load
    {verdict : Verdict}
    (sent : (Backend.load network config.source query).sent =
      verdict.sent config.source query)
    (yields : verdict.Yields network config.source query
      (Backend.load network config.source query).outcome) :
    Reports (loadingExchange (Backend.load network config.source query))
      network config query verdict
      (Backend.load network config.source query).outcome := by
  refine ⟨yields, ?_, status_of_yields yields, fun whole => ?_⟩
  · exact (sent_loadingExchange _).trans sent
  · cases outcome : (Backend.load network config.source query).outcome with
    | error error =>
        exact outcome ▸ carries_of_error outcome
    | ok data =>
        cases verdict with
        | served =>
            obtain ⟨envelope, other, decodes, isData, succeeds⟩ := yields
            obtain rfl := Except.ok.inj (outcome.symm.trans succeeds)
            exact outcome ▸
              carries_of_ok decodes isData outcome (whole _ outcome)
        | _ =>
            simp [Verdict.Yields, outcome] at yields

/-- The settings of a relay whose backend has an address. -/
def facing (address : String) : RelayConfig :=
  { RelayConfig.standard with source.apiUrl := some address }

/-- A network in which every request is answered with a text. -/
def answering (text : String) : Network :=
  ⟨fun _ => .answered .ok ⟨bytesOf text, true⟩⟩

/-- A deployment in an envelope, as its backend writes it. -/
def backendText : String :=
  "\x7b\"data\": \x7b\"build\": 42, \"created_at\": \"\", \"digest\": \"\"," ++
    " \"id\": 7, \"status\": \x7b\"Success\": null\x7d\x7d, \"success\": true\x7d"

/-- The same deployment, as a relay writes it. -/
def relayText : String :=
  "\x7b\"success\":true,\"data\":\x7b\"id\":7,\"digest\":\"\"," ++
    "\"status\":\"Success\",\"created_at\":\"\",\"build\":42\x7d," ++
    "\"error\":null\x7d"

end EventRelay.Http
