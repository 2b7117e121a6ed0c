namespace EventRelay.Text.Utf8

/-!
# UTF-8

Bytes are read one at a time by a small machine that remembers an unfinished
character.  It reports each character it completes, and reports each maximal
malformed part once.  Lossy and strict decoding are two views of that report.
-/

/-- A character whose leading bytes have been read. -/
structure Unfinished where
  /-- Continuation bytes still owed after the next one. -/
  owed : Nat
  /-- Least byte allowed next. -/
  low : UInt8
  /-- Greatest byte allowed next. -/
  high : UInt8
  /-- Bits collected so far. -/
  value : Nat
  deriving Repr, DecidableEq

/-- What a byte means between two characters. -/
inductive Lead where
  | complete (character : Char)
  | unfinished (state : Unfinished)
  | malformed
  deriving Repr, DecidableEq

namespace Lead

/-- Classifies a leading byte, shutting out overlong forms and surrogates. -/
def ofByte (byte : UInt8) : Lead :=
  if byte < 0x80 then
    .complete (Char.ofNat byte.toNat)
  else if byte < 0xC2 then
    .malformed
  else if byte < 0xE0 then
    .unfinished ⟨0, 0x80, 0xBF, byte.toNat - 0xC0⟩
  else if byte < 0xF0 then
    .unfinished ⟨1,
      if byte = 0xE0 then 0xA0 else 0x80,
      if byte = 0xED then 0x9F else 0xBF,
      byte.toNat - 0xE0⟩
  else if byte < 0xF5 then
    .unfinished ⟨2,
      if byte = 0xF0 then 0x90 else 0x80,
      if byte = 0xF4 then 0x8F else 0xBF,
      byte.toNat - 0xF0⟩
  else
    .malformed

end Lead

/-- What a byte completes: characters, with `none` for a malformed part. -/
abbrev Report := List (Option Char)

/-- Reads one byte between two characters. -/
def start (byte : UInt8) : Report × Option Unfinished :=
  match Lead.ofByte byte with
  | .complete character =>
      ([some character], none)
  | .unfinished state =>
      ([], some state)
  | .malformed =>
      ([none], none)

/-- Reads one byte; a byte that cannot continue a character starts the next. -/
def step (state : Option Unfinished) (byte : UInt8) :
    Report × Option Unfinished :=
  match state with
  | none =>
      start byte
  | some unfinished =>
      if unfinished.low ≤ byte ∧ byte ≤ unfinished.high then
        let value := unfinished.value * 64 + byte.toNat % 64
        match unfinished.owed with
        | 0 =>
            ([some (Char.ofNat value)], none)
        | owed + 1 =>
            ([], some ⟨owed, 0x80, 0xBF, value⟩)
      else
        let (report, next) := start byte
        (none :: report, next)

/-- The report of the bytes that follow a state, after what was reported. -/
def scanFrom :
    Option Unfinished → Report → List UInt8 → Report
  | none, reported, [] =>
      reported.reverse
  | some _, reported, [] =>
      (none :: reported).reverse
  | state, reported, byte :: rest =>
      let (report, next) := step state byte
      scanFrom next (report.reverse ++ reported) rest

/-- The characters of a byte sequence, with `none` for each malformed part. -/
def scan (bytes : List UInt8) : Report :=
  scanFrom none [] bytes

/-- The character that stands for a malformed part. -/
def replacement : Char :=
  '\uFFFD'

/-- Decodes every byte sequence, replacing each malformed part. -/
def decodeLossy (bytes : List UInt8) : List Char :=
  (scan bytes).map (·.getD replacement)

/-- Decodes well-formed bytes only. -/
def decode? (bytes : List UInt8) : Option (List Char) :=
  let report := scan bytes
  if report.all Option.isSome then
    some (report.filterMap id)
  else
    none

/-- The bytes of one character, shortest form. -/
def encodeChar (character : Char) : List UInt8 :=
  let value := character.toNat
  if value < 0x80 then
    [value.toUInt8]
  else if value < 0x800 then
    [(0xC0 + value / 64).toUInt8, (0x80 + value % 64).toUInt8]
  else if value < 0x10000 then
    [(0xE0 + value / 4096).toUInt8,
      (0x80 + value / 64 % 64).toUInt8,
      (0x80 + value % 64).toUInt8]
  else
    [(0xF0 + value / 262144).toUInt8,
      (0x80 + value / 4096 % 64).toUInt8,
      (0x80 + value / 64 % 64).toUInt8,
      (0x80 + value % 64).toUInt8]

/-- The bytes of a text. -/
def encode (text : List Char) : List UInt8 :=
  text.flatMap encodeChar

/-- The bytes of a string. -/
def bytesOf (text : String) : List UInt8 :=
  encode text.toList

end EventRelay.Text.Utf8
