import TrafficControl.Lib.InetAddress
import Mathlib.Logic.Function.Basic

set_option autoImplicit false

-- The configuration file of the astats plugin.
namespace Astats

open SignedBytes CStrings InetAddress

inductive Family where
  | inet
  | inet6
  deriving DecidableEq

namespace Family

-- `sizeof(struct in_addr)` and `sizeof(struct in6_addr)`
def size : Family → Nat
  | .inet => 4
  | .inet6 => 16

def bits (family : Family) : Nat := 8 * family.size

def defaultIp : Family → List Char
  | .inet => "127.0.0.1".toList
  | .inet6 => "::1".toList

def inet_pton : Family → List Char → Option (List Byte)
  | .inet => inet_pton4
  | .inet6 => inet_pton6

variable (family : Family)

theorem inet_pton_length {family : Family} {src : List Char} {address : List Byte}
    (parsed : family.inet_pton src = some address) : address.length = family.size := by
  cases family with
  | inet => exact inet_pton4_length parsed
  | inet6 => exact inet_pton6_length parsed

theorem inet_pton_nil : family.inet_pton [] = none := by
  cases family <;> decide

theorem size_pos : 0 < family.size := by
  cases family <;> decide

theorem bits_lt : family.bits < 256 := by
  cases family <;> decide

def localhost : Family → List Byte
  | .inet => [127, 0, 0, 1]
  | .inet6 => List.replicate 15 0 ++ [1]

theorem inet_pton_defaultIp : family.inet_pton family.defaultIp = some family.localhost := by
  cases family <;> decide

end Family

/-- `ipCount` and `allowIps` of a family. A table has five (seventeen) bytes for each entry, the last for the mask. -/
structure Ips where
  count : Nat
  table : Option (List Byte)

structure config_t where
  recordTypes : BitVec 32
  stats_path : Option (List Char)
  ips : Family → Ips

/-- A line, and the bytes that `TSmalloc` returns when it is parsed. -/
structure Line where
  text : List Char
  memory : Nat → Byte

def TSmalloc (memory : Nat → Byte) (n : Nat) : List Byte := (List.range n).map memory

section Parse

variable (family : Family)

def slot (network : Network) : List Byte := network.address ++ [BitVec.ofNat 8 network.length]

/-- What a token is read as. There is no result where `inet_pton` is given NULL, and no network where the token is
skipped. The mask is what is left of an `int` in a `char`. -/
def readToken (tok1 : List Char) : Option (Option Network) :=
  (strtok_r ['/'] tok1).map fun (tok2, tok1) => (family.inet_pton tok2).map fun address =>
    ⟨address, (strtok_r ['/'] tok1).elim family.bits fun (tok2, _) => (BitVec.ofInt 8 (strtol 10 tok2)).toNat⟩

def store (table : List Byte) (offset : Nat) (bytes : List Byte) : List Byte :=
  table.take offset ++ bytes ++ table.drop (offset + bytes.length)

-- The second loop, from slot `i` on.
def fill : List (List Char) → Nat → List Byte → Option (List Byte)
  | [], _, table => some table
  | tok1 :: toks, i, table => (readToken family tok1).bind fun
    | none => fill toks i table
    | some network => fill toks (i + 1) (store table ((family.size + 1) * i) (slot network))

def ipTokens (ipStr : List Char) : List (List Char) := tokens [',', ' ', '\n'] ipStr

/-- `parseIps` and `parseIps6`: without a line the default. -/
def parse (this : Ips) : Option Line → Option Ips
  | none => (family.inet_pton family.defaultIp).map fun address => ⟨1, some (slot ⟨address, family.bits⟩)⟩
  | some line =>
    let toks := ipTokens line.text
    let count := this.count + toks.length
    if count = 0 then some this
    else (fill family toks 0 (TSmalloc line.memory ((family.size + 1) * count))).map fun table => ⟨count, some table⟩

def parseFamily (config : config_t) (ipStr : Option Line) : Option config_t :=
  (parse family (config.ips family) ipStr).map fun ips => { config with ips := Function.update config.ips family ips }

end Parse

def parseIps : config_t → Option Line → Option config_t := parseFamily .inet

def parseIps6 : config_t → Option Line → Option config_t := parseFamily .inet6

inductive Setting where
  | path (p : List Char)
  | recordTypes (p : List Char)
  | allow (family : Family) (p : List Char)

def after (key : String) (buffer : List Char) : Option (List Char) := (strstr key.toList buffer).map (·.drop key.length)

/-- What a line sets; the keys are looked for anywhere in it. -/
def setting (text : List Char) : Option Setting :=
  let buffer := text.takeWhile (· ≠ '\x00')
  if buffer.head? = some '#' then none
  else ((after "path=" buffer).map .path).or (((after "record_types=" buffer).map .recordTypes).or
    (((after "allow_ip=" buffer).map (.allow .inet)).or ((after "allow_ip6=" buffer).map (.allow .inet6))))

def readLine (config : config_t) (line : Line) : Option config_t :=
  match setting line.text with
  | some (.path p) => (strtok_r [' ', '\n'] p).map fun (tok, _) => { config with stats_path := some tok }
  | some (.recordTypes p) => (strtok_r [' ', '\n'] p).map fun (tok, _) =>
    { config with recordTypes := BitVec.ofInt 32 (strtol 16 tok) }
  | some (.allow .inet p) => parseIps config (some ⟨p, line.memory⟩)
  | some (.allow .inet6 p) => parseIps6 config (some ⟨p, line.memory⟩)
  | none => some config

-- `SYSTEM_RECORD_TYPE | TS_RECORDTYPE_PROCESS | TS_RECORDTYPE_PLUGIN`
def defaultConfig : config_t := ⟨0x122, none, fun _ => ⟨0, none⟩⟩

def withDefault (parse : config_t → Option Line → Option config_t) (family : Family) (config : config_t) : Option config_t :=
  if (config.ips family).count = 0 then parse config none else some config

/-- The lines are those that `TSfgets` reads; without a file there are none to read. -/
def new_config : Option (List Line) → Option config_t
  | none => some { defaultConfig with stats_path := some "_astats".toList }
  | some lines => (lines.foldlM readLine defaultConfig).bind fun config =>
    (withDefault parseIps .inet config).bind (withDefault parseIps6 .inet6)

end Astats
