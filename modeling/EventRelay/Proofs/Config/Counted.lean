import EventRelay.Proofs.Config.Finishing
import EventRelay.Proofs.Toml.Ranges

namespace EventRelay.Config

/-!
# Numbers of 64 bits

Every number of a configuration that is loaded was read from a file or is a
default, and files hold no numbers that do not fit in 64 bits with a sign.  The
environment gives no numbers.
-/

def Source.numbers (source : Source) : List Nat :=
  [source.connectTimeoutSecs, source.idleReadTimeoutSecs,
    source.requestTimeoutSecs]

def Relay.numbers (relay : Relay) : List Nat :=
  [relay.channelCapacity, relay.keepAliveSecs, relay.maxFrameBytes]

def Backoff.numbers (backoff : Backoff) : List Nat :=
  [backoff.delayMs, backoff.baseDelayMs, backoff.maxDelayMs]

def Auth.numbers (auth : Auth) : List Nat :=
  [auth.cookieMaxAgeSecs]

def RelayConfig.numbers (config : RelayConfig) : List Nat :=
  config.source.numbers ++ config.relay.numbers ++ config.backoff.numbers ++
    config.auth.numbers

/-- All numbers have 64 bits. -/
def AllCounted (numbers : List Nat) : Prop :=
  ∀ number ∈ numbers, number ≤ Timing.maxWord

instance (numbers : List Nat) : Decidable (AllCounted numbers) :=
  inferInstanceAs (Decidable (∀ number ∈ numbers, number ≤ Timing.maxWord))

/-- The largest number that fits in 64 bits with a sign. -/
def maxSigned : Nat :=
  9223372036854775807

/-- All numbers fit in 64 bits with a sign. -/
def AllSigned (numbers : List Nat) : Prop :=
  ∀ number ∈ numbers, number ≤ maxSigned

instance (numbers : List Nat) : Decidable (AllSigned numbers) :=
  inferInstanceAs (Decidable (∀ number ∈ numbers, number ≤ maxSigned))

/-- All numbers of the default configuration fit in 64 bits with a sign. -/
theorem allSigned_standard : AllSigned RelayConfig.standard.numbers := by
  decide

namespace Datum

/--
What holds of the default and of all that can be read holds of the setting.
-/
theorem of_setting?
    (Holds : α → Prop)
    {find : Finder}
    {place : Nat}
    {name : String}
    {read : Datum → Option α}
    {default value : α}
    (ofDefault : Holds default)
    (ofRead : ∀ {part value},
      find place name = some part → read part = some value → Holds value)
    (found : setting? find place name read default = some value) :
    Holds value := by
  unfold setting? at found
  split at found
  · obtain rfl := Option.some.inj found
    exact ofDefault
  · next isPart =>
      exact ofRead isPart found

/-- A number read from data in range fits into 64 signed bits. -/
private theorem InRange.le_maxSigned_of_count?
    {datum : Datum}
    {number : Nat}
    (inRange : datum.InRange)
    (counts : datum.count? = some number) :
    number ≤ maxSigned := by
  cases inRange with
  | @integer value _ small =>
      simp only [count?, Option.ite_none_right_eq_some,
        Option.some.injEq] at counts
      obtain ⟨-, rfl⟩ := counts
      rw [maxSigned]
      omega
  | _ =>
      contradiction

/-- Every entry of a section in range is in range. -/
private theorem InRange.part
    {format : Format}
    {count : Nat}
    {datum part : Datum}
    {find : Finder}
    {place : Nat}
    {name : String}
    (inRange : datum.InRange)
    (finds : datum.finder? format count = some find)
    (found : find place name = some part) :
    part.InRange := by
  cases inRange with
  | table isInline each =>
      obtain rfl := Option.some.inj finds
      obtain ⟨before, after, rfl, -⟩ := List.lookup_eq_some_iff.mp found
      exact each (name, part)
        (List.mem_append_right before List.mem_cons_self)
  | list each =>
      simp only [finder?, Option.ite_none_left_eq_some,
        Option.some.injEq] at finds
      obtain ⟨-, rfl⟩ := finds
      exact each part (List.mem_of_getElem? found)
  | moment =>
      obtain rfl := Option.some.inj finds
      contradiction
  | _ =>
      contradiction

variable {format : Format} {datum : Datum}

/-- A number that is read as a setting fits in 64 bits with a sign. -/
theorem signed_of_setting?
    (inRange : datum.InRange)
    {count : Nat}
    {find : Finder}
    (finds : datum.finder? format count = some find)
    {place : Nat}
    {name : String}
    {default number : Nat}
    (isDefault : default ∈ RelayConfig.standard.numbers)
    (found : setting? find place name count? default = some number) :
    number ≤ maxSigned :=
  of_setting? (· ≤ maxSigned) (allSigned_standard default isDefault)
    (fun isPart counts =>
      (inRange.part finds isPart).le_maxSigned_of_count? counts)
    found

/-- The numbers of a source read from data in range are signed. -/
private theorem signed_of_source?
    (inRange : datum.InRange)
    {source : Source}
    (reads : source? format datum = some source) :
    AllSigned source.numbers := by
  simp only [source?, Option.bind_eq_bind, Option.bind_eq_some_iff,
    Option.some.injEq] at reads
  obtain ⟨find, finds, sseUrl, -, apiUrl, -, apiToken, -, connect,
    readConnect, idle, readIdle, request, readRequest, rfl⟩ := reads
  simp only [AllSigned, Source.numbers, List.forall_mem_cons,
    List.not_mem_nil, false_implies, implies_true, and_true]
  exact ⟨signed_of_setting? inRange finds (by decide) readConnect,
    signed_of_setting? inRange finds (by decide) readIdle,
    signed_of_setting? inRange finds (by decide) readRequest⟩

/-- The numbers of a relay read from data in range are signed. -/
private theorem signed_of_relay?
    (inRange : datum.InRange)
    {relay : Relay}
    (reads : relay? format datum = some relay) :
    AllSigned relay.numbers := by
  simp only [relay?, Option.bind_eq_bind, Option.bind_eq_some_iff,
    Option.some.injEq] at reads
  obtain ⟨find, finds, capacity, readCapacity, keepAlive, readKeepAlive,
    maxFrame, readMaxFrame, rfl⟩ := reads
  simp only [AllSigned, Relay.numbers, List.forall_mem_cons,
    List.not_mem_nil, false_implies, implies_true, and_true]
  exact ⟨signed_of_setting? inRange finds (by decide) readCapacity,
    signed_of_setting? inRange finds (by decide) readKeepAlive,
    signed_of_setting? inRange finds (by decide) readMaxFrame⟩

/-- The numbers of a backoff read from data in range are signed. -/
private theorem signed_of_backoff?
    (inRange : datum.InRange)
    {backoff : Backoff}
    (reads : backoff? format datum = some backoff) :
    AllSigned backoff.numbers := by
  simp only [backoff?, Option.bind_eq_bind, Option.bind_eq_some_iff,
    Option.some.injEq] at reads
  obtain ⟨find, finds, strategy, -, delay, readDelay, base, readBase, cap,
    readCap, rfl⟩ := reads
  simp only [AllSigned, Backoff.numbers, List.forall_mem_cons,
    List.not_mem_nil, false_implies, implies_true, and_true]
  exact ⟨signed_of_setting? inRange finds (by decide) readDelay,
    signed_of_setting? inRange finds (by decide) readBase,
    signed_of_setting? inRange finds (by decide) readCap⟩

/-- The numbers of an authentication read from data in range are signed. -/
private theorem signed_of_auth?
    (inRange : datum.InRange)
    {auth : Auth}
    (reads : auth? format datum = some auth) :
    AllSigned auth.numbers := by
  simp only [auth?, Option.bind_eq_bind, Option.bind_eq_some_iff,
    Option.some.injEq] at reads
  obtain ⟨find, finds, secret, -, name, -, secure, -, sameSite, -, maxAge,
    readMaxAge, rfl⟩ := reads
  simp only [AllSigned, Auth.numbers, List.forall_mem_cons,
    List.not_mem_nil, false_implies, implies_true, and_true]
  exact signed_of_setting? inRange finds (by decide) readMaxAge

/-- Every number of a configuration that was read fits in 64 bits with a sign. -/
theorem signed_of_config?
    (inRange : datum.InRange)
    {config : RelayConfig}
    (reads : config? format datum = some config) :
    AllSigned config.numbers := by
  simp only [config?, Option.bind_eq_bind, Option.bind_eq_some_iff,
    Option.some.injEq] at reads
  obtain ⟨find, finds, listener, -, source, readSource, relay, readRelay,
    backoff, readBackoff, auth, readAuth, observability, -, rfl⟩ := reads
  have held {place : Nat} {name : String} {part : Datum}
      (isPart : find place name = some part) : part.InRange :=
    inRange.part finds isPart
  have standard := allSigned_standard
  simp only [AllSigned, RelayConfig.numbers, List.forall_mem_append,
    and_assoc] at standard ⊢
  obtain ⟨ofSource, ofRelay, ofBackoff, ofAuth⟩ := standard
  exact
    ⟨of_setting? (fun source : Source => AllSigned source.numbers) ofSource
        (fun isPart => signed_of_source? (held isPart)) readSource,
      of_setting? (fun relay : Relay => AllSigned relay.numbers) ofRelay
        (fun isPart => signed_of_relay? (held isPart)) readRelay,
      of_setting? (fun backoff : Backoff => AllSigned backoff.numbers) ofBackoff
        (fun isPart => signed_of_backoff? (held isPart)) readBackoff,
      of_setting? (fun auth : Auth => AllSigned auth.numbers) ofAuth
        (fun isPart => signed_of_auth? (held isPart)) readAuth⟩

end Datum

/-- The environment gives no numbers. -/
private theorem numbers_apply (environment : Environment) (config : RelayConfig) :
    (environment.apply config).numbers = config.numbers := by
  have one (config : RelayConfig) (source : Variable) :
      (environment.applyOne config source).numbers = config.numbers := by
    rw [Environment.applyOne]
    cases environment.value? source with
    | none =>
        rfl
    | some value =>
        cases source <;> rfl
  simp only [Environment.apply, Variable.all, List.foldl_cons, List.foldl_nil,
    one]

/-- The environment brings in no numbers. -/
private theorem allSigned_of_finish
    {environment : Environment}
    {config loaded : RelayConfig}
    (signed : AllSigned config.numbers)
    (finishes : finish environment config = .ok loaded) :
    AllSigned loaded.numbers := by
  obtain ⟨-, rfl⟩ := validate_eq_ok_iff.mp finishes
  rw [numbers_apply]
  exact signed

/-- The numbers read from a file are signed. -/
private theorem allSigned_of_readFile
    {file : File}
    {config : RelayConfig}
    (reads : readFile file = .ok config) :
    AllSigned config.numbers := by
  unfold readFile at reads
  split at reads
  · cases reads
  · split at reads
    · cases reads
    · split at reads
      · cases reads
      · next read =>
          obtain rfl := Except.ok.inj reads
          obtain ⟨table, parses, isConfig⟩ := Option.bind_eq_some_iff.mp read
          exact Datum.signed_of_config? (Toml.inRange_of_parse? parses) isConfig

/-- All numbers of a loaded configuration fit in 64 bits with a sign. -/
theorem allSigned_of_load
    {environment : Environment}
    {file : Option File}
    {config : RelayConfig}
    (loads : load environment file = .ok config) :
    AllSigned config.numbers := by
  cases file with
  | none =>
      exact allSigned_of_finish allSigned_standard loads
  | some file =>
      obtain ⟨read, reads, finishes⟩ := exists_of_loadFile loads
      exact allSigned_of_finish (allSigned_of_readFile reads) finishes

/-- All numbers of a loaded configuration have 64 bits. -/
theorem allCounted_of_load
    {environment : Environment}
    {file : Option File}
    {config : RelayConfig}
    (loads : load environment file = .ok config) :
    AllCounted config.numbers :=
  fun number isNumber =>
    Nat.le_trans (allSigned_of_load loads number isNumber) (by decide)

end EventRelay.Config
