import TrafficControl.Lib.CStrings
import TrafficControl.Lib.SignedBytes

set_option autoImplicit false

-- Internet addresses in text, and networks of them.
namespace InetAddress

open SignedBytes CStrings

/-- Up to 255, and without a leading zero. -/
def octet (s : List Char) : Option Byte :=
  if s ≠ [] ∧ s.all Char.isDigit ∧ (s.head? = some '0' → s = ['0']) ∧ digits 10 0 s ≤ 255 then
    some (BitVec.ofNat 8 (digits 10 0 s))
  else none

/-- `inet_pton(AF_INET, src, dst)`, which writes nothing where it fails. -/
def inet_pton4 (src : List Char) : Option (List Byte) :=
  match src.splitOn '.' with
  | [a, b, c, d] => (octet a).bind fun a => (octet b).bind fun b => (octet c).bind fun c => (octet d).map fun d => [a, b, c, d]
  | _ => none

def group (s : List Char) : Option (List Byte) :=
  if s ≠ [] ∧ s.length ≤ 4 ∧ s.all fun c => (digit 16 c).isSome then
    some [BitVec.ofNat 8 (digits 16 0 s / 256), BitVec.ofNat 8 (digits 16 0 s)]
  else none

-- The last group may be an address in dotted form.
def groups (dotted : Bool) : List (List Char) → Option (List Byte)
  | [] => some []
  | [s] => (group s).or (if dotted then inet_pton4 s else none)
  | s :: rest => (group s).bind fun bytes => (groups dotted rest).map fun others => bytes ++ others

def side (dotted : Bool) (s : List Char) : Option (List Byte) := if s = [] then some [] else groups dotted (s.splitOn ':')

/-- `inet_pton(AF_INET6, src, dst)`. Two colons stand for at least one group of zeros. -/
def inet_pton6 (src : List Char) : Option (List Byte) :=
  match strstr [':', ':'] src with
  | none => (side true src).bind fun bytes => if bytes.length = 16 then some bytes else none
  | some rest => (side false (src.take (src.length - rest.length))).bind fun front => (side true (rest.drop 2)).bind fun back =>
    if front.length + back.length < 16 then some (front ++ List.replicate (16 - front.length - back.length) 0 ++ back) else none

example : ["10.0.0.255", "10.0.0.256", "10.0.01.2", "10.0.0"].map (fun s => inet_pton4 s.toList) =
    [some [10, 0, 0, 255], none, none, none] := by decide

example : ["2001:db8::1", "::ffff:10.0.0.1", "1:2:3:4:5:6:7", "::1::"].map (fun s => inet_pton6 s.toList) =
    [some ([0x20, 0x01, 0x0d, 0xb8] ++ List.replicate 11 0 ++ [1]),
      some (List.replicate 10 0 ++ [0xff, 0xff, 10, 0, 0, 1]), none, none] := by decide

theorem inet_pton4_length {src : List Char} {address : List Byte} (parsed : inet_pton4 src = some address) :
    address.length = 4 := by
  unfold inet_pton4 at parsed
  split at parsed
  · simp only [Option.bind_eq_some_iff, Option.map_eq_some_iff] at parsed
    obtain ⟨a, _, b, _, c, _, d, _, rfl⟩ := parsed
    rfl
  · cases parsed

theorem inet_pton6_length {src : List Char} {address : List Byte} (parsed : inet_pton6 src = some address) :
    address.length = 16 := by
  unfold inet_pton6 at parsed
  split at parsed
  · obtain ⟨bytes, _, whole⟩ := Option.bind_eq_some_iff.mp parsed
    split at whole
    · next length =>
      cases whole
      exact length
    · cases whole
  · obtain ⟨front, _, rest⟩ := Option.bind_eq_some_iff.mp parsed
    obtain ⟨back, _, whole⟩ := Option.bind_eq_some_iff.mp rest
    split at whole
    · next room =>
      cases whole
      simp only [List.length_append, List.length_replicate]
      omega
    · cases whole

structure Network where
  address : List Byte
  length : Nat
  deriving DecidableEq

/-- The client has the first bits of the network's address. -/
def Network.Contains (network : Network) (client : List Byte) : Prop := ∀ i < network.length, bit client i = bit network.address i

instance (network : Network) (client : List Byte) : Decidable (network.Contains client) :=
  inferInstanceAs (Decidable (∀ i < network.length, bit client i = bit network.address i))

end InetAddress
