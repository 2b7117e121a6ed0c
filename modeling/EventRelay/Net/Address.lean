import EventRelay.Net.Ipv6

namespace EventRelay.Net

/-!
# Socket addresses

An address of a host and a number from zero to 65535, as listeners use them.
-/

/-- The host part of a socket address. -/
inductive HostAddress where
  | ipv4 (octets : List Nat)
  | ipv6 (groups : Groups) (scope : Option Nat)
  deriving Repr, DecidableEq

/-- Where a listener binds. -/
structure SocketAddress where
  host : HostAddress
  portNumber : Nat
  deriving Repr, DecidableEq

namespace SocketAddress

/-- Reads an IPv6 host with an optional numeric scope. -/
def ipv6Host? (text : List Char) : Option HostAddress :=
  match Text.splitOnce? (· == '%') text with
  | none =>
      (ipv6? text).map (.ipv6 · none)
  | some (address, scope) => do
      let groups ← ipv6? address
      let scope ← bounded? (4294967295) scope
      some (.ipv6 groups (some scope))

/-- Reads a socket address. -/
def ofText? (text : List Char) : Option SocketAddress :=
  match text with
  | '[' :: rest => do
      let (host, after) ← Text.splitOnce? (· == ']') rest
      match after with
      | ':' :: number =>
          let host ← ipv6Host? host
          let number ← bounded? 65535 number
          some ⟨host, number⟩
      | _ =>
          none
  | _ => do
      let (host, number) ← Text.splitOnce? (· == ':') text
      let octets ← octets? host
      let number ← bounded? 65535 number
      some ⟨.ipv4 octets, number⟩

/--
The text of a host: an IPv6 host stands in brackets, and one that stands for
an IPv4 host ends in its four numbers.
-/
def hostText : HostAddress → List Char
  | .ipv4 octets =>
      octetsText octets
  | .ipv6 groups scope =>
      '[' :: groupsText groups ++ scopeText scope ++ [']']
where
  /-- Four numbers separated by points. -/
  octetsText (octets : List Nat) : List Char :=
    ['.'].intercalate (octets.map Text.decimalText)
  /-- The groups of an address. -/
  groupsText (groups : Groups) : List Char :=
    match groups with
    | [0, 0, 0, 0, 0, 0xFFFF, first, second] =>
        "::ffff:".toList ++
          octetsText [first / 256, first % 256, second / 256, second % 256]
    | _ =>
        ipv6Text groups
  /-- The scope, unless it is zero. -/
  scopeText (scope : Option Nat) : List Char :=
    match scope with
    | some (number + 1) =>
        '%' :: Text.decimalText (number + 1)
    | _ =>
        []

/-- The text of a socket address. -/
def text (address : SocketAddress) : String :=
  String.ofList
    (hostText address.host ++ ':' :: Text.decimalText address.portNumber)

/--
Whether a machine without special interfaces can listen there: at any of its
addresses, or at a loopback address.
-/
def isLocal (address : SocketAddress) : Bool :=
  match address.host with
  | .ipv4 octets =>
      octets == [0, 0, 0, 0] || octets.head? == some 127
  | .ipv6 groups _ =>
      groups == [0, 0, 0, 0, 0, 0, 0, 0] || groups == [0, 0, 0, 0, 0, 0, 0, 1]

end SocketAddress

end EventRelay.Net
