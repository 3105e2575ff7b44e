import TrafficControl.Lib.ExceptList

set_option autoImplicit false

-- Bytes as pairs of hexadecimal digits. Digits are read in either case and written in lower case.
namespace Hex

inductive DecodeError where
  | oddLength
  | invalidByte (byte : UInt8)

def digit (value : Nat) : UInt8 := UInt8.ofNat (if value < 10 then 48 + value else 87 + value)

def fromHexChar (char : UInt8) : Option Nat :=
  if 48 ≤ char ∧ char ≤ 57 then some (char.toNat - 48)
  else if 97 ≤ char ∧ char ≤ 102 then some (char.toNat - 87)
  else if 65 ≤ char ∧ char ≤ 70 then some (char.toNat - 55)
  else none

def encodeToString (bytes : List UInt8) : List UInt8 :=
  bytes.flatMap fun byte => [digit (byte.toNat / 16), digit (byte.toNat % 16)]

def readDigit (char : UInt8) : Except DecodeError Nat :=
  match fromHexChar char with
  | some value => .ok value
  | none => .error (.invalidByte char)

def decodePairs : List UInt8 → Except DecodeError (List UInt8)
  | high :: low :: rest => do
    let a ← readDigit high
    let b ← readDigit low
    let bytes ← decodePairs rest
    return UInt8.ofNat (a * 16 + b) :: bytes
  | _ => .ok []

def decodeString (text : List UInt8) : Except DecodeError (List UInt8) :=
  if text.length % 2 = 1 then .error .oddLength else decodePairs text

theorem fromHexChar_digit : ∀ value < 16, fromHexChar (digit value) = some value := by decide

theorem digit_ne_dash : ∀ value < 16, digit value ≠ 45 := by decide

theorem readDigit_digit {value : Nat} (small : value < 16) : readDigit (digit value) = .ok value := by
  rw [readDigit, fromHexChar_digit value small]

theorem decodePairs_encodeToString (bytes : List UInt8) : decodePairs (encodeToString bytes) = .ok bytes := by
  induction bytes with
  | nil => rfl
  | cons byte bytes ih =>
    have bound := byte.toNat_lt
    have whole : byte.toNat / 16 * 16 + byte.toNat % 16 = byte.toNat := by omega
    change decodePairs (digit (byte.toNat / 16) :: digit (byte.toNat % 16) :: encodeToString bytes) = _
    rw [decodePairs, readDigit_digit (by omega), readDigit_digit (by omega), ih]
    change Except.ok (UInt8.ofNat (byte.toNat / 16 * 16 + byte.toNat % 16) :: bytes) = _
    rw [whole, UInt8.ofNat_toNat]

theorem length_encodeToString (bytes : List UInt8) : (encodeToString bytes).length = 2 * bytes.length := by
  induction bytes with
  | nil => rfl
  | cons byte bytes ih =>
    change (encodeToString bytes).length + 2 = _
    rw [ih, List.length_cons]
    omega

theorem decodeString_encodeToString (bytes : List UInt8) : decodeString (encodeToString bytes) = .ok bytes := by
  have even : (encodeToString bytes).length % 2 ≠ 1 := by
    rw [length_encodeToString]
    omega
  rw [decodeString, if_neg even, decodePairs_encodeToString]

theorem dash_not_mem_encodeToString (bytes : List UInt8) : 45 ∉ encodeToString bytes := by
  intro member
  obtain ⟨byte, -, inPair⟩ := List.mem_flatMap.mp member
  have bound := byte.toNat_lt
  rcases List.mem_pair.mp inPair with dash | dash
  · exact digit_ne_dash _ (by omega) dash.symm
  · exact digit_ne_dash _ (by omega) dash.symm

end Hex
