namespace EventRelay.Text.Base64

/-!
# Base 64

Three bytes are written as four characters of six bits each.  The last group
is filled up with equals signs.
-/

/-- The characters of the values from 0 to 63. -/
def alphabet : List Char :=
  "ABCDEFGHIJKLMNOPQRSTUVWXYZabcdefghijklmnopqrstuvwxyz0123456789+/".toList

/-- The character of the six lowest bits of a value. -/
def digit (value : Nat) : Char :=
  alphabet.getD (value % 64) 'A'

/-- The written form of bytes. -/
def encode : List UInt8 → List Char
  | [] =>
      []
  | [first] =>
      let value := first.toNat * 16
      [digit (value / 64), digit value, '=', '=']
  | [first, second] =>
      let value := (first.toNat * 256 + second.toNat) * 4
      [digit (value / 4096), digit (value / 64), digit value, '=']
  | first :: second :: third :: rest =>
      let value := (first.toNat * 256 + second.toNat) * 256 + third.toNat
      digit (value / 262144) :: digit (value / 4096) :: digit (value / 64) ::
        digit value :: encode rest

end EventRelay.Text.Base64
