import TrafficControl.TrafficServer.Astats.Config
import Mathlib.Tactic.Push

set_option autoImplicit false

-- Which clients the configuration of astats lets in.
namespace Astats

open SignedBytes CStrings InetAddress

-- A mask of the first bits of a byte.
def cm (bits : Nat) : Byte := (List.range bits).foldl (fun cm k => cm ||| 1#8 <<< (7 - k)) 0

/-- There is no result where a byte behind the end of `ip` or `ipmask` is read. -/
def is_ip_match : List Byte → List Byte → Nat → Option Bool
  | a :: ip, b :: ipmask, umask =>
    if 8 ≤ umask then if a ≠ b then some false else is_ip_match ip ipmask (umask - 8)
    else some (a &&& cm umask == b &&& cm umask)
  | _, _, _ => none

-- `sin_zero` and `sin6_scope_id`
def Family.room : Family → Nat
  | .inet => 8
  | .inet6 => 4

/-- The bytes of a socket address from its `sin_addr` or `sin6_addr` on. -/
structure Client (family : Family) where
  address : List Byte
  rest : List Byte
  size : address.length = family.size
  restSize : rest.length = family.room

inductive sockaddr where
  | ip (family : Family) (client : Client family)
  | other

/-- The loop over the slots of a table. -/
def isIn (family : Family) (ip : List Byte) : Nat → List Byte → Option Bool
  | 0, _ => some false
  | count + 1, ipmask => ipmask[family.size]?.bind fun mask => (is_ip_match ip ipmask mask.toNat).bind fun found =>
    if found then some true else isIn family ip count (ipmask.drop (family.size + 1))

def is_ip_allowed (config : config_t) : Option sockaddr → Option Bool
  | some (.ip family client) => (config.ips family).table.elim (some true) fun table =>
    isIn family (client.address ++ client.rest) (config.ips family).count table
  | some .other | none => some true

theorem is_ip_allowed_of_no_file {config : config_t} (configured : new_config none = some config) (addr : Option sockaddr) :
    is_ip_allowed config addr = some true := by
  cases configured
  cases addr with
  | none => rfl
  | some addr => cases addr <;> rfl

section Claimed

variable (family : Family)

/-- The network that a well-formed token denotes. -/
def network? (token : List Char) : Option Network :=
  match token.dropWhile (· ≠ '/') with
  | [] => (family.inet_pton token).map fun address => ⟨address, family.bits⟩
  | _ :: length =>
    if length ≠ [] ∧ length.all Char.isDigit ∧ digits 10 0 length ≤ family.bits then
      (family.inet_pton (token.takeWhile (· ≠ '/'))).map fun address => ⟨address, digits 10 0 length⟩
    else none

def allowValue (line : List Char) : Option (List Char) :=
  match setting line with
  | some (.allow other p) => if other = family then some p else none
  | _ => none

/-- What the lines of the family's key have behind it. -/
def values (lines : List (List Char)) : List (List Char) := lines.filterMap (allowValue family)

def Denoted (values : List (List Char)) (address : List Byte) : Prop :=
  ∃ value ∈ values, ∃ token ∈ ipTokens value, ∃ network, network? family token = some network ∧ network.Contains address

instance (values : List (List Char)) (address : List Byte) : Decidable (Denoted family values address) :=
  decidable_of_iff (values.any fun value => (ipTokens value).any fun token =>
    (network? family token).any fun network => network.Contains address) (by simp [Denoted, Option.any_eq_true])

def Allowed (lines : List (List Char)) (address : List Byte) : Prop :=
  values family lines = [] ∧ address = family.localhost ∨ Denoted family (values family lines) address

instance (lines : List (List Char)) (address : List Byte) : Decidable (Allowed family lines address) :=
  inferInstanceAs (Decidable (_ ∨ _))

end Claimed

/-- Whatever `TSmalloc` returns, those are let in that the lines allow. -/
def Exact (lines : List (List Char)) : Prop :=
  ∀ read : List Line, read.map Line.text = lines → ∃ config, new_config (some read) = some config ∧
    ∀ family (client : Client family), ∃ allowed, is_ip_allowed config (some (.ip family client)) = some allowed ∧
      (allowed = true ↔ Allowed family lines client.address)

section Match

theorem cm_getMsbD : ∀ bits k : Fin 8, (cm bits).getMsbD k = decide (k < bits) := by decide

theorem bit_head {a : Byte} {bytes : List Byte} {i : Nat} (inside : i < 8) : bit (a :: bytes) i = a.getMsbD i := by
  rw [bit, Nat.div_eq_of_lt inside, Nat.mod_eq_of_lt inside]
  rfl

theorem bit_tail (a : Byte) (bytes : List Byte) (i : Nat) : bit (a :: bytes) (8 + i) = bit bytes i := by
  have next : (8 + i) / 8 = i / 8 + 1 := by omega
  have place : (8 + i) % 8 = i % 8 := by omega
  rw [bit, bit, next, place]
  rfl

theorem masked_eq_iff {a b : Byte} {bits : Nat} (inside : bits < 8) :
    a &&& cm bits = b &&& cm bits ↔ ∀ k < bits, a.getMsbD k = b.getMsbD k := by
  have masked (x : Byte) (k : Nat) (within : k < 8) : (x &&& cm bits).getMsbD k = (x.getMsbD k && decide (k < bits)) := by
    have mask := cm_getMsbD ⟨bits, inside⟩ ⟨k, within⟩
    rw [BitVec.getMsbD_and]
    exact congrArg _ mask
  constructor
  · intro same k below
    have bits := congrArg (BitVec.getMsbD · k) same
    simpa [masked _ k (by omega), below] using bits
  · intro same
    apply BitVec.eq_of_getMsbD_eq
    intro k within
    rw [masked a k within, masked b k within]
    by_cases below : k < bits
    · rw [same k below]
    · simp [below]

/-- Of a mask within the addresses the bits are compared, and one byte more is read of each. -/
theorem is_ip_match_eq (ip address : List Byte) {umask : Nat} (sizes : ip.length = address.length)
    (within : umask ≤ 8 * address.length) (x : Byte) (xs : List Byte) (y : Byte) (ys : List Byte) :
    is_ip_match (ip ++ x :: xs) (address ++ y :: ys) umask =
      some (decide (∀ i < umask, bit ip i = bit address i)) := by
  induction ip generalizing address umask with
  | nil =>
    obtain rfl := List.eq_nil_of_length_eq_zero sizes.symm
    obtain rfl : umask = 0 := by simpa using within
    simp [is_ip_match, cm]
  | cons a ip ih =>
    cases address with
    | nil => cases sizes
    | cons b address =>
      simp only [List.length_cons] at sizes within
      rw [List.cons_append, List.cons_append, is_ip_match]
      by_cases whole : 8 ≤ umask
      · have step : (∀ i < umask, bit (a :: ip) i = bit (b :: address) i) ↔
            a = b ∧ ∀ i < umask - 8, bit ip i = bit address i := by
          constructor
          · intro same
            constructor
            · apply BitVec.eq_of_getMsbD_eq
              intro i inside
              have first := same i (by omega)
              rwa [bit_head inside, bit_head inside] at first
            · intro i inside
              have later := same (8 + i) (by omega)
              rwa [bit_tail, bit_tail] at later
          · rintro ⟨rfl, same⟩ i inside
            by_cases first : i < 8
            · rw [bit_head first, bit_head first]
            · obtain ⟨j, rfl⟩ := Nat.exists_eq_add_of_le (Nat.le_of_not_lt first)
              rw [bit_tail, bit_tail]
              exact same j (by omega)
        rw [if_pos whole]
        by_cases same : a = b
        · subst same
          rw [if_neg (by simp), ih address (by omega) (by omega)]
          simp [step]
        · rw [if_pos same]
          simp [step, same]
      · have inside : umask < 8 := by omega
        have bits : a &&& cm umask = b &&& cm umask ↔ ∀ i < umask, bit (a :: ip) i = bit (b :: address) i := by
          rw [masked_eq_iff inside]
          refine forall_congr' fun i => forall_congr' fun below => ?_
          rw [bit_head (by omega), bit_head (by omega)]
        rw [if_neg whole]
        exact congrArg some (Bool.eq_iff_iff.mpr (by simp [bits]))

end Match

end Astats
