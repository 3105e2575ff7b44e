import TrafficControl.Lib.ExceptList
import TrafficControl.Lib.PaddedBase64
import Mathlib.Algebra.Ring.Int.Defs
import Mathlib.Algebra.Ring.Nat

set_option autoImplicit false

-- Passwords as they are stored, and their verification.
namespace Password

open PaddedBase64 (encodeToString decodeString)

inductive NumError where
  | invalid
  | range
deriving DecidableEq

-- A message that quotes a text of the database keeps the text and what is wrong with it.
inductive Fault where
  | panic
  | message (text : String)
  | badN (text : List UInt8) (error : NumError) (value : Int)
deriving DecidableEq

structure SCRYPTComponents where
  algorithm : List UInt8
  n : Int
  r : Int
  p : Int
  salt : List UInt8
  saltLen : Nat
  dk : List UInt8
  dkLen : Nat
deriving DecidableEq

/-- Password, salt, `N`, `r`, `p` and the length of the key. -/
abbrev ScryptKey := List UInt8 → List UInt8 → Int → Int → Int → Nat → Except String (List UInt8)

def colon : UInt8 := 58

-- `SCRYPT`
def algorithmName : List UInt8 := [83, 67, 82, 89, 80, 84]

def defaultParams : SCRYPTComponents := ⟨algorithmName, 16384, 8, 1, [], 16, [], 64⟩

section Numbers

def isDigit (c : UInt8) : Bool := 48 ≤ c && c ≤ 57

-- A number that leaves 64 bits is out of range, whatever follows.
def parseUint : List UInt8 → Nat → Except NumError Nat
  | [], n => .ok n
  | c :: digits, n =>
    if isDigit c = false then .error .invalid
    else
      let next := n * 10 + (c.toNat - 48)
      if 2 ^ 64 ≤ next then .error .range else parseUint digits next

def signed : List UInt8 → Bool × List UInt8
  | 43 :: digits => (false, digits)
  | 45 :: digits => (true, digits)
  | digits => (false, digits)

def outOfRange (negative : Bool) : NumError × Int := (.range, if negative then -2 ^ 63 else 2 ^ 63 - 1)

/-- A sign may stand in front of the digits. -/
def atoi (text : List UInt8) : Except (NumError × Int) Int :=
  let (negative, digits) := signed text
  if digits = [] then .error (.invalid, 0)
  else
    match parseUint digits 0 with
    | .error .invalid => .error (.invalid, 0)
    | .error .range => .error (outOfRange negative)
    | .ok n =>
      if negative then if 2 ^ 63 < n then .error (outOfRange true) else .ok (-n)
      else if 2 ^ 63 ≤ n then .error (outOfRange false) else .ok n

def itoa (n : Nat) : List UInt8 := (Nat.toDigits 10 n).map fun c => UInt8.ofNat c.toNat

end Numbers

section Parse

-- An index beyond the parts is a panic.
def field {α : Type} (sh : List (List UInt8)) (i : Nat) (read : List UInt8 → Except Fault α) : Except Fault α :=
  match sh[i]? with
  | none => .error .panic
  | some text => read text

def readAlgorithm (text : List UInt8) : Except Fault (List UInt8) :=
  if text = [] then .error (.message "Algorithm was not defined")
  else if text = defaultParams.algorithm then .ok text
  else .error (.message "Algorithm defined is not SCRYPT")

def readN (text : List UInt8) : Except Fault Int :=
  if text = [] then .error (.message "N was not defined")
  else (atoi text).mapError fun error => .badN text error.1 error.2

def readParameter (name : String) (text : List UInt8) : Except Fault Int :=
  if text = [] then .error (.message (name ++ " was not defined"))
  else (atoi text).mapError fun error => .message ("i=" ++ toString error.2 ++ ", type: int\n")

def readSalt (text : List UInt8) : Except Fault (List UInt8) :=
  match decodeString text with
  | none => .error (.message "salt cannot be decoded")
  | some salt => if salt.length = 0 then .error (.message "salt length cannot be zero") else .ok salt

def readKey (text : List UInt8) : Except Fault (List UInt8) :=
  match decodeString text with
  | none => .error (.message "key cannot be decoded")
  | some dk => .ok dk

def parseScrypt (scryptPassword : List UInt8) : Except Fault SCRYPTComponents :=
  if scryptPassword = [] then .error (.message "scrypt password is required")
  else
    let sh := scryptPassword.splitOn colon
    do
      let algorithm ← field sh 0 readAlgorithm
      let n ← field sh 1 readN
      let r ← field sh 2 (readParameter "r")
      let p ← field sh 3 (readParameter "p")
      let salt ← field sh 4 readSalt
      let dk ← field sh 5 readKey
      return ⟨algorithm, n, r, p, salt, salt.length, dk, 0⟩

end Parse

section Passwords

variable (key : ScryptKey)

/-- The salt is what the random numbers gave, or why they failed. -/
def derivePassword (password : List UInt8) (drawn : Except String (List UInt8)) : Except String (List UInt8) := do
  let salt ← drawn.mapError fun error => "generating salt: " ++ error
  let dk ← key password salt defaultParams.n defaultParams.r defaultParams.p defaultParams.dkLen
  return [colon].intercalate [defaultParams.algorithm, itoa 16384, itoa 8, itoa 1, encodeToString salt, encodeToString dk]

def verifyPassword (password scryptPassword : List UInt8) : Except Fault Unit := do
  let scomp ← parseScrypt scryptPassword
  let keylenBytes : Int := scryptPassword.length - defaultParams.dkLen
  if keylenBytes < 1 then .error (.message "Invalid scryptPassword length")
  else
    let tmpDK ← (key password scomp.salt scomp.n scomp.r scomp.p defaultParams.dkLen).mapError .message
    if scomp.dk = tmpDK then .ok () else .error (.message "invalid password")

end Passwords

end Password
