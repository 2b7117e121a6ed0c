import EventRelay.Http.Serving
import EventRelay.Proofs.Http.Running

namespace EventRelay.Http

/-!
# What a serving server does

Every request is answered with the configuration that was published last, and
the log tells of each publication between the start and the end.  A server
whose configurations run safely answers whatever it is asked.
-/

open Config (RelayConfig)

variable {network : Network} {streams : StreamNetwork}

private theorem Server.config_of_handle?
    {server next : Server}
    {request : Request}
    {exchange : Exchange}
    (handles : server.handle? network request = some (exchange, next)) :
    next.config = server.config := by
  unfold handle? at handles
  split at handles
  · unfold route? at handles
    split at handles
    · cases handles
      rfl
    · obtain ⟨answered, -, handles⟩ := Option.bind_eq_some_iff.mp handles
      cases handles
      rfl
  · cases handles
    rfl

namespace Occurrence

/-- The configuration that is published. -/
def published? : Occurrence → Option RelayConfig
  | .asks _ _ =>
      none
  | .publishes config =>
      some config

/-- Whether a client asks for something. -/
def isRequest : Occurrence → Bool
  | .asks _ _ =>
      true
  | .publishes _ =>
      false

end Occurrence

/-- The configuration after some occurrences. -/
def latestConfig (first : RelayConfig) (occurrences : List Occurrence) :
    RelayConfig :=
  (occurrences.filterMap Occurrence.published?).getLast?.getD first

private theorem latestConfig_cons
    (first : RelayConfig)
    (occurrence : Occurrence)
    (later : List Occurrence) :
    latestConfig first (occurrence :: later) =
      latestConfig (occurrence.published?.getD first) later := by
  unfold latestConfig
  cases isPublished : occurrence.published? with
  | none =>
      rw [List.filterMap_cons_none isPublished]
      rfl
  | some config =>
      rw [List.filterMap_cons_some isPublished, List.getLast?_cons]
      cases (later.filterMap Occurrence.published?).getLast? <;> rfl

namespace Serving

variable {serving next : Serving} {occurrence : Occurrence}
variable {occurrences : List Occurrence}

/-- What one occurrence does to a server. -/
structure Moves
    (serving : Serving)
    (occurrence : Occurrence)
    (next : Serving) : Prop where
  config :
    next.server.config = occurrence.published?.getD serving.server.config
  /-- A request is answered, and nothing else is. -/
  answers :
    ∃ answered : List Exchange,
      next.exchanges = serving.exchanges ++ answered ∧
        answered.length = occurrence.isRequest.toNat
  /-- A publication is logged. -/
  logs :
    ∃ logged,
      next.log = serving.log ++ logged ∧
        List.Sublist (occurrence.published?.map Server.reloadEntry).toList
          logged

private theorem Moves.of_step?
    (steps : step? network streams serving occurrence = some next) :
    Moves serving occurrence next := by
  cases occurrence with
  | asks request departure =>
      obtain ⟨⟨exchange, server⟩, handles, steps⟩ :=
        Option.bind_eq_some_iff.mp steps
      have same := Server.config_of_handle? handles
      cases steps
      exact
        { config := same
          answers := ⟨[exchange], rfl, rfl⟩
          logs := ⟨_, List.append_assoc _ _ _, List.nil_sublist _⟩ }
  | publishes config =>
      cases steps
      exact
        { config := rfl
          answers := ⟨[], (List.append_nil _).symm, rfl⟩
          logs := ⟨_, rfl, List.Sublist.refl _⟩ }

private theorem run?_cons_eq_some_iff :
    run? network streams serving (occurrence :: occurrences) = some next ↔
      ∃ middle,
        step? network streams serving occurrence = some middle ∧
          run? network streams middle occurrences = some next :=
  Option.bind_eq_some_iff

private theorem run?_append_eq_some_iff {later : List Occurrence} :
    run? network streams serving (occurrences ++ later) = some next ↔
      ∃ middle,
        run? network streams serving occurrences = some middle ∧
          run? network streams middle later = some next := by
  rw [run?, List.foldlM_append]
  exact Option.bind_eq_some_iff

/-- After a run the configuration is the one that was published last. -/
theorem config_of_run?
    (runs : run? network streams serving occurrences = some next) :
    next.server.config = latestConfig serving.server.config occurrences := by
  induction occurrences generalizing serving with
  | nil =>
      cases runs
      rfl
  | cons occurrence later inductionHypothesis =>
      obtain ⟨middle, steps, runs⟩ := run?_cons_eq_some_iff.mp runs
      rw [inductionHypothesis runs, latestConfig_cons,
        (Moves.of_step? steps).config]

/-- A run answers as many requests as there are, after those before it. -/
theorem exchanges_of_run?
    (runs : run? network streams serving occurrences = some next) :
    ∃ answered : List Exchange,
      next.exchanges = serving.exchanges ++ answered ∧
        answered.length = occurrences.countP Occurrence.isRequest := by
  induction occurrences generalizing serving with
  | nil =>
      cases runs
      exact ⟨[], (List.append_nil _).symm, rfl⟩
  | cons occurrence later inductionHypothesis =>
      obtain ⟨middle, steps, runs⟩ := run?_cons_eq_some_iff.mp runs
      obtain ⟨first, isFirst, one⟩ := (Moves.of_step? steps).answers
      obtain ⟨others, areOthers, counted⟩ := inductionHypothesis runs
      refine ⟨first ++ others, ?_, ?_⟩
      · rw [areOthers, isFirst, List.append_assoc]
      · rw [List.length_append, one, counted, List.countP_cons, Nat.add_comm]
        cases occurrence.isRequest <;> rfl

/-- A run logs every publication, in order. -/
private theorem log_of_run?
    (runs : run? network streams serving occurrences = some next) :
    ∃ logged,
      next.log = serving.log ++ logged ∧
        List.Sublist
          ((occurrences.filterMap Occurrence.published?).map
            Server.reloadEntry)
          logged := by
  induction occurrences generalizing serving with
  | nil =>
      cases runs
      exact ⟨[], (List.append_nil _).symm, List.Sublist.refl _⟩
  | cons occurrence later inductionHypothesis =>
      obtain ⟨middle, steps, runs⟩ := run?_cons_eq_some_iff.mp runs
      obtain ⟨first, isFirst, one⟩ := (Moves.of_step? steps).logs
      obtain ⟨others, areOthers, each⟩ := inductionHypothesis runs
      refine ⟨first ++ others, ?_, ?_⟩
      · rw [areOthers, isFirst, List.append_assoc]
      · have whole := one.append each
        cases isPublished : occurrence.published? with
        | none =>
            rw [List.filterMap_cons_none isPublished]
            rw [isPublished] at whole
            exact whole
        | some config =>
            rw [List.filterMap_cons_some isPublished]
            rw [isPublished] at whole
            exact whole

end Serving

/-- The answers and the log of a server that served. -/
structure Served
    (network : Network)
    (server : Server)
    (address : String)
    (occurrences : List Occurrence)
    (serving : Serving) : Prop where
  /-- A request is answered with the configuration published last before it. -/
  answered :
    ∀ before request departure after,
      occurrences = before ++ .asks request departure :: after →
      ∃ (current : Server) (exchange : Exchange) (next : Server),
        current.config = latestConfig server.config before ∧
          current.handle? network request = some (exchange, next) ∧
          serving.exchanges[before.countP Occurrence.isRequest]? =
            some exchange
  /-- Nothing but requests is answered. -/
  exchanges :
    serving.exchanges.length = occurrences.countP Occurrence.isRequest
  /-- The entries of the publications stand, in order, between those of the
      start and of the end. -/
  log :
    ∃ logged,
      serving.log = Server.startEntry address :: logged ++ [Server.stopEntry] ∧
        List.Sublist
          ((occurrences.filterMap Occurrence.published?).map
            Server.reloadEntry)
          logged

/--
A server that served until it was told to stop answered each request as it was
configured then, and logged each publication.
-/
theorem Server.served_of_serve?
    {server : Server}
    {address : String}
    {occurrences : List Occurrence}
    {serving : Serving}
    (serves :
      server.serve? network streams address occurrences = some serving) :
    Served network server address occurrences serving := by
  obtain ⟨last, runs, serves⟩ := Option.bind_eq_some_iff.mp serves
  cases serves
  refine ⟨?answered, ?exchanges, ?log⟩
  case answered =>
    rintro before request departure after rfl
    obtain ⟨current, runsBefore, runsAfter⟩ :=
      Serving.run?_append_eq_some_iff.mp runs
    obtain ⟨middle, steps, runsAfter⟩ :=
      Serving.run?_cons_eq_some_iff.mp runsAfter
    obtain ⟨⟨exchange, next⟩, handles, steps⟩ :=
      Option.bind_eq_some_iff.mp steps
    cases steps
    obtain ⟨earlier, areEarlier, counted⟩ :=
      Serving.exchanges_of_run? runsBefore
    obtain ⟨others, areOthers, -⟩ := Serving.exchanges_of_run? runsAfter
    refine ⟨current.server, exchange, next, Serving.config_of_run? runsBefore,
      handles, ?_⟩
    have place : earlier.length = before.countP Occurrence.isRequest := counted
    simp [areOthers, areEarlier, Serving.start, ← place]
  case exchanges =>
    obtain ⟨answered, areAnswered, counted⟩ := Serving.exchanges_of_run? runs
    rw [areAnswered]
    exact counted
  case log =>
    obtain ⟨logged, isLogged, each⟩ := Serving.log_of_run? runs
    exact ⟨logged, by rw [isLogged]; rfl, each⟩

/--
A server that starts with a configuration that runs safely, and is given no
others, serves whatever reaches it.
-/
theorem Server.serve?_isSome
    {server : Server}
    (runs : RunsSafely server.config)
    {occurrences : List Occurrence}
    (all : ∀ config ∈ occurrences.filterMap Occurrence.published?,
      RunsSafely config)
    (address : String) :
    (server.serve? network streams address occurrences).isSome = true := by
  have ends : ∀ serving : Serving,
      RunsSafely serving.server.config →
        (Serving.run? network streams serving occurrences).isSome = true := by
    induction occurrences with
    | nil =>
        intro serving _
        rfl
    | cons occurrence later inductionHypothesis =>
        intro serving runs
        cases occurrence with
        | asks request departure =>
            obtain ⟨⟨exchange, next⟩, handles⟩ := Option.isSome_iff_exists.mp
              (Server.handle?_isSome runs network request)
            have same := Server.config_of_handle? handles
            rw [Serving.run?, List.foldlM_cons, Serving.step?, handles]
            exact inductionHypothesis all _ (same ▸ runs)
        | publishes config =>
            obtain ⟨now, others⟩ := List.forall_mem_cons.mp all
            exact inductionHypothesis others _ now
  obtain ⟨serving, isServing⟩ :=
    Option.isSome_iff_exists.mp (ends (.start server) runs)
  rw [serve?, isServing]
  rfl

end EventRelay.Http
