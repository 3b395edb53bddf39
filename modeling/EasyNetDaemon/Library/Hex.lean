import Mathlib.Data.List.Basic

/-!
# Hexadecimal text

Bytes as lower-case hexadecimal digits, two for each byte, and back. Upper-case digits are read,
too.
-/

namespace EasyNetDaemon.Library

/-- The lower-case digit of a number. -/
def hexDigit (n : Nat) : Char := "0123456789abcdef".toList.getD n '0'

/-- The number of a digit. -/
def hexValue (c : Char) : Option Nat :=
  match "0123456789abcdef".toList.findIdx? (· = c) with
  | some n => some n
  | none => ("0123456789ABCDEF".toList.findIdx? (· = c))

/-- Two digits for each byte. -/
def hexEncode (bytes : List UInt8) : List Char :=
  bytes.flatMap fun b => [hexDigit (b.toNat / 16), hexDigit (b.toNat % 16)]

/-- The bytes of pairs of digits. -/
def hexDecode : List Char → Option (List UInt8)
  | [] => some []
  | high :: low :: rest => do
    let high ← hexValue high
    let low ← hexValue low
    let rest ← hexDecode rest
    return UInt8.ofNat (16 * high + low) :: rest
  | [_] => none

theorem hexValue_hexDigit {n : Nat} (h : n < 16) : hexValue (hexDigit n) = some n := by
  have hall : ∀ i : Fin 16, hexValue (hexDigit i) = some i.1 := by decide
  exact hall ⟨n, h⟩

theorem hexDecode_hexEncode (bytes : List UInt8) : hexDecode (hexEncode bytes) = some bytes := by
  induction bytes with
  | nil => rfl
  | cons b rest ih =>
    have hb := b.toNat_lt
    have hsum : UInt8.ofNat (16 * (b.toNat / 16) + b.toNat % 16) = b := by
      rw [Nat.div_add_mod, UInt8.ofNat_toNat]
    have hcons : hexEncode (b :: rest) =
        hexDigit (b.toNat / 16) :: hexDigit (b.toNat % 16) :: hexEncode rest := rfl
    rw [hcons, hexDecode, hexValue_hexDigit (by omega), hexValue_hexDigit (by omega), ih]
    exact congrArg (fun byte => some (byte :: rest)) hsum

end EasyNetDaemon.Library
