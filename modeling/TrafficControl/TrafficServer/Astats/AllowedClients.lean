import TrafficControl.TrafficServer.Astats.Access

set_option autoImplicit false

-- When the tables of astats let in those that the configuration allows.
namespace Astats

open SignedBytes CStrings InetAddress

section Reading

variable (family : Family)

def reading (token : List Char) : Option Network := (readToken family token).bind id

/-- The code reads a well-formed token as what it denotes. -/
theorem readToken_of_network {family : Family} {token : List Char} {network : Network}
    (denotes : network? family token = some network) : readToken family token = some (some network) := by
  have split := List.takeWhile_append_dropWhile (p := fun c => decide (c ≠ '/')) (l := token)
  have first {address : List Byte} (parsed : family.inet_pton (token.takeWhile (· ≠ '/')) = some address) :
      strtok_r ['/'] token = some (token.takeWhile (· ≠ '/'), (token.dropWhile (· ≠ '/')).tail) := by
    cases token with
    | nil => rw [List.takeWhile_nil, Family.inet_pton_nil] at parsed; cases parsed
    | cons c token =>
      have apart : c ≠ '/' := by
        rintro rfl
        rw [List.takeWhile_cons_of_neg (by simp), Family.inet_pton_nil] at parsed
        cases parsed
      simp [strtok_r, apart]
  unfold network? at denotes
  split at denotes
  · next alone =>
    rw [alone, List.append_nil] at split
    obtain ⟨address, parsed, rfl⟩ := Option.map_eq_some_iff.mp denotes
    rw [readToken, first (split.symm ▸ parsed), alone, split]
    simp [parsed, strtok_r]
  · next c length behind =>
    split at denotes
    · next decimal =>
      obtain ⟨some, all, short⟩ := decimal
      obtain ⟨address, parsed, rfl⟩ := Option.map_eq_some_iff.mp denotes
      have bound := family.bits_lt
      have unslashed : ∀ d ∈ length, d ≠ '/' := by
        rintro d member rfl
        cases List.all_eq_true.mp all _ member
      have mask : strtok_r ['/'] length = Option.some (length, []) := by
        cases length with
        | nil => exact absurd rfl some
        | cons d length =>
          have kept : (d :: length).takeWhile (· ∉ ['/']) = d :: length :=
            List.takeWhile_eq_self_iff.mpr fun e member => by simpa using unslashed e member
          have done : (d :: length).dropWhile (· ∉ ['/']) = [] :=
            List.dropWhile_eq_nil_iff.mpr fun e member => by simpa using unslashed e member
          rw [strtok_r, List.dropWhile_cons_of_neg (by simpa using unslashed d List.mem_cons_self)]
          simp only [kept, done, List.tail_nil]
      have value := strtol_digits some all (by omega)
      have byte : (BitVec.ofInt 8 (strtol 10 length)).toNat = digits 10 0 length := by
        rw [value, BitVec.ofInt_natCast, BitVec.toNat_ofNat]
        omega
      rw [readToken, first parsed, behind]
      simp only [List.tail_cons, Option.map_some, parsed, mask, Option.elim_some, byte]
    · cases denotes

theorem reading_eq_some {family : Family} {token : List Char} {network : Network} :
    reading family token = some network ↔ readToken family token = some (some network) := by
  rw [reading, Option.bind_eq_some_iff]
  exact ⟨fun ⟨_, read, same⟩ => (show _ = some network from same) ▸ read, fun read => ⟨_, read, rfl⟩⟩

theorem reading_bounds {family : Family} {token : List Char} {network : Network} (read : reading family token = some network) :
    network.address.length = family.size ∧ network.length < 256 := by
  obtain ⟨⟨tok2, tok1⟩, _, parsed⟩ := Option.map_eq_some_iff.mp (reading_eq_some.mp read)
  obtain ⟨address, accepted, rfl⟩ := Option.map_eq_some_iff.mp parsed
  refine ⟨Family.inet_pton_length accepted, ?_⟩
  cases strtok_r ['/'] tok1 with
  | none => exact family.bits_lt
  | some next => exact BitVec.isLt _

def readings (toks : List (List Char)) : List Network := toks.filterMap (reading family)

theorem readings_bounds {family : Family} {toks : List (List Char)} :
    ∀ network ∈ readings family toks, network.address.length = family.size ∧ network.length < 256 := by
  intro network member
  obtain ⟨token, _, read⟩ := List.mem_filterMap.mp member
  exact reading_bounds read

end Reading

section Table

variable {family : Family}

theorem slots_length {networks : List Network} (sizes : ∀ network ∈ networks, network.address.length = family.size) :
    (networks.flatMap slot).length = (family.size + 1) * networks.length := by
  induction networks with
  | nil => rfl
  | cons network networks ih =>
    obtain ⟨size, sizes⟩ := List.forall_mem_cons.mp sizes
    rw [List.flatMap_cons, List.length_append, ih sizes, slot, List.length_append, size, List.length_singleton,
      List.length_cons, Nat.mul_add, Nat.mul_one, Nat.add_comm]

theorem store_append {done rest bytes : List Byte} {offset : Nat} (length : done.length = offset) :
    store (done ++ rest) offset bytes = done ++ bytes ++ rest.drop bytes.length := by
  subst length
  rw [store, List.take_left, List.drop_append]
  simp

/-- What the loop leaves: a slot for each token that is read, and behind them the bytes that were there. -/
theorem fill_eq {toks : List (List Char)} (readable : ∀ token ∈ toks, (readToken family token).isSome = true)
    (networks : List Network) (sizes : ∀ network ∈ networks, network.address.length = family.size) (rest : List Byte) :
    fill family toks networks.length (networks.flatMap slot ++ rest) =
      some ((networks ++ readings family toks).flatMap slot ++
        rest.drop ((family.size + 1) * (readings family toks).length)) := by
  induction toks generalizing networks rest with
  | nil => simp [fill, readings]
  | cons token toks ih =>
    obtain ⟨here, later⟩ := List.forall_mem_cons.mp readable
    obtain ⟨read, found⟩ := Option.isSome_iff_exists.mp here
    rw [fill, found]
    cases read with
    | none =>
      have skipped : reading family token = none := by rw [reading, found]; rfl
      have same : readings family (token :: toks) = readings family toks := List.filterMap_cons_none skipped
      rw [same]
      exact ih later networks sizes rest
    | some network =>
      have kept : reading family token = some network := reading_eq_some.mpr found
      have more : readings family (token :: toks) = network :: readings family toks := List.filterMap_cons_some kept
      have size : (slot network).length = family.size + 1 := by
        rw [slot, List.length_append, (reading_bounds kept).1, List.length_singleton]
      have stored : store (networks.flatMap slot ++ rest) ((family.size + 1) * networks.length) (slot network) =
          (networks ++ [network]).flatMap slot ++ rest.drop (family.size + 1) := by
        rw [store_append (slots_length sizes), size, List.flatMap_append, List.flatMap_singleton]
      have length : networks.length + 1 = (networks ++ [network]).length := by simp
      have all : ∀ other ∈ networks ++ [network], other.address.length = family.size := by
        intro other member
        rcases List.mem_append.mp member with earlier | last
        · exact sizes other earlier
        · exact List.mem_singleton.mp last ▸ (reading_bounds kept).1
      simp only [Option.bind_some]
      rw [stored, length, ih later _ all, more, List.length_cons, List.append_assoc, List.singleton_append, List.drop_drop,
        Nat.mul_add, Nat.mul_one, Nat.add_comm]

theorem fill_isSome {toks : List (List Char)} {i : Nat} {table : List Byte} :
    (fill family toks i table).isSome = true ↔ ∀ token ∈ toks, (readToken family token).isSome = true := by
  induction toks generalizing i table with
  | nil => simp [fill]
  | cons token toks ih =>
    rw [fill, List.forall_mem_cons]
    cases readToken family token with
    | none => simp
    | some read => cases read <;> simp [ih]

/-- A client that is in no network is looked for in the bytes behind. -/
theorem isIn_slots (networks : List Network) (sizes : ∀ network ∈ networks, network.address.length = family.size)
    (range : ∀ network ∈ networks, network.length ≤ family.bits) (client : Client family) (count : Nat) (rest : List Byte) :
    isIn family (client.address ++ client.rest) (networks.length + count) (networks.flatMap slot ++ rest) =
      if ∃ network ∈ networks, network.Contains client.address then some true
      else isIn family (client.address ++ client.rest) count rest := by
  induction networks with
  | nil => simp
  | cons network networks ih =>
    obtain ⟨size, sizes⟩ := List.forall_mem_cons.mp sizes
    obtain ⟨short, range⟩ := List.forall_mem_cons.mp range
    have bound := family.bits_lt
    obtain ⟨x, xs, behind⟩ : ∃ x xs, client.rest = x :: xs := by
      cases split : client.rest with
      | nil =>
        have length := client.restSize
        rw [split] at length
        cases family <;> cases length
      | cons x xs => exact ⟨x, xs, rfl⟩
    have next : (network :: networks).length + count = networks.length + count + 1 := by
      rw [List.length_cons]
      omega
    have table : (network :: networks).flatMap slot ++ rest =
        network.address ++ BitVec.ofNat 8 network.length :: (networks.flatMap slot ++ rest) := by
      simp [slot]
    have mask : (network.address ++ BitVec.ofNat 8 network.length :: (networks.flatMap slot ++ rest))[family.size]? =
        some (BitVec.ofNat 8 network.length) := by
      rw [← size, List.getElem?_append_right (Nat.le_refl _), Nat.sub_self]
      rfl
    have left : (network.address ++ BitVec.ofNat 8 network.length :: (networks.flatMap slot ++ rest)).drop (family.size + 1) =
        networks.flatMap slot ++ rest := by
      rw [← size, List.drop_append]
      simp
    have umask : (BitVec.ofNat 8 network.length).toNat = network.length := by
      rw [BitVec.toNat_ofNat]
      exact Nat.mod_eq_of_lt (by omega)
    have within : network.length ≤ 8 * network.address.length := by
      rw [size]
      exact short
    have found := is_ip_match_eq client.address network.address (client.size.trans size.symm) within x xs
      (BitVec.ofNat 8 network.length) (networks.flatMap slot ++ rest)
    rw [next, table, isIn, mask, Option.bind_some, umask, behind, found, left, ← behind, Option.bind_some, ih sizes range]
    by_cases inside : network.Contains client.address
    · rw [if_pos (by simpa [Network.Contains] using inside), if_pos ⟨network, List.mem_cons_self, inside⟩]
    · rw [if_neg (by simpa [Network.Contains] using inside)]
      simp [inside]

-- Slots of which all bytes are `b`.
def leftover (family : Family) (count : Nat) (b : Byte) : List Byte := List.replicate ((family.size + 1) * count) b

theorem leftover_slot (family : Family) (count : Nat) (b : Byte) : (leftover family (count + 1) b)[family.size]? = some b ∧
    leftover family (count + 1) b = b :: List.replicate (family.size + (family.size + 1) * count) b ∧
    (leftover family (count + 1) b).drop (family.size + 1) = leftover family count b := by
  have length : (family.size + 1) * (count + 1) = family.size + (family.size + 1) * count + 1 := by
    rw [Nat.mul_add]
    omega
  have left : (family.size + 1) * (count + 1) - (family.size + 1) = (family.size + 1) * count := by
    rw [Nat.mul_add]
    omega
  refine ⟨?_, ?_, ?_⟩
  · rw [leftover, List.getElem?_replicate_of_lt (by omega)]
  · rw [leftover, length, List.replicate_succ]
  · rw [leftover, List.drop_replicate, left, leftover]

theorem isIn_zeros {a : Byte} {ip : List Byte} (count : Nat) :
    isIn family (a :: ip) (count + 1) (leftover family (count + 1) 0) = some true := by
  obtain ⟨mask, first, _⟩ := leftover_slot family count 0
  rw [isIn, mask, first]
  simp [is_ip_match, cm]

theorem isIn_other {a b : Byte} {ip : List Byte} (count : Nat) (large : 8 ≤ b.toNat) (other : a ≠ b) :
    isIn family (a :: ip) count (leftover family count b) = some false := by
  induction count with
  | zero => rfl
  | succ count ih =>
    obtain ⟨mask, first, left⟩ := leftover_slot family count b
    have unmatched : is_ip_match (a :: ip) (leftover family (count + 1) b) b.toNat = some false := by
      rw [first, is_ip_match, if_pos large, if_pos other]
    rw [isIn, mask, Option.bind_some, unmatched, left, Option.bind_some, ih]
    rfl

end Table

section Configured

variable (family : Family)

def allows (read : List Line) : List Line :=
  read.filterMap fun line => (allowValue family line.text).map fun p => ⟨p, line.memory⟩

theorem allows_text (read : List Line) : (allows family read).map Line.text = values family (read.map Line.text) := by
  rw [allows, values, List.map_filterMap, List.filterMap_map]
  simp [Function.comp_def]

/-- What the text of a line must have: otherwise the C library is given NULL for a string. -/
def Readable (text : List Char) : Prop :=
  match setting text with
  | some (.path p) | some (.recordTypes p) => tokens [' ', '\n'] p ≠ []
  | some (.allow _ p) => ∀ token ∈ ipTokens p, tokens ['/'] token ≠ []
  | none => True

theorem readToken_isSome {family : Family} {token : List Char} :
    (readToken family token).isSome = true ↔ tokens ['/'] token ≠ [] := by
  rw [readToken, Option.isSome_map, strtok_r_isSome]

theorem parse_isSome {family : Family} {this : Ips} {line : Line} :
    (parse family this (some line)).isSome = true ↔ ∀ token ∈ ipTokens line.text, tokens ['/'] token ≠ [] := by
  unfold parse
  dsimp only
  split
  · next empty =>
    have none : ipTokens line.text = [] := List.eq_nil_of_length_eq_zero (by omega)
    simp [none]
  · rw [Option.isSome_map, fill_isSome]
    simp only [readToken_isSome]

theorem readLine_isSome (config : config_t) {line : Line} : (readLine config line).isSome = true ↔ Readable line.text := by
  unfold readLine Readable
  split
  · next found => simp only [found, Option.isSome_map, strtok_r_isSome]
  · next found => simp only [found, Option.isSome_map, strtok_r_isSome]
  · next found => simp only [found, parseIps, parseFamily, Option.isSome_map, parse_isSome]
  · next found => simp only [found, parseIps6, parseFamily, Option.isSome_map, parse_isSome]
  · next found => simp [found]

theorem foldlM_isSome (config : config_t) {read : List Line} :
    (read.foldlM readLine config).isSome = true ↔ ∀ line ∈ read, Readable line.text := by
  induction read generalizing config with
  | nil => simp
  | cons line read ih =>
    rw [List.foldlM_cons, List.forall_mem_cons, ← readLine_isSome config]
    cases step : readLine config line with
    | none => simp
    | some config' => simpa using ih config'

def parseAll (this : Ips) (lines : List Line) : Option Ips := lines.foldlM (fun this line => parse family this (some line)) this

theorem parseFamily_ips {family other : Family} {config config' : config_t} {line : Option Line}
    (parsed : parseFamily other config line = some config') :
    (if other = family then parse family (config.ips family) line else some (config.ips family)) = some (config'.ips family) := by
  obtain ⟨ips, found, rfl⟩ := Option.map_eq_some_iff.mp parsed
  by_cases same : other = family
  · subst same
    rw [if_pos rfl, found]
    exact congrArg some (Function.update_self other ips config.ips).symm
  · rw [if_neg same]
    exact congrArg some (Function.update_of_ne (Ne.symm same) ips config.ips).symm

theorem readLine_ips (family : Family) {config config' : config_t} {line : Line} (step : readLine config line = some config') :
    (allowValue family line.text).elim (some (config.ips family))
      (fun p => parse family (config.ips family) (some ⟨p, line.memory⟩)) = some (config'.ips family) := by
  have allowed {other : Family} {p : List Char} (found : setting line.text = some (.allow other p))
      (parsed : parseFamily other config (some ⟨p, line.memory⟩) = some config') :
      (allowValue family line.text).elim (some (config.ips family))
        (fun p => parse family (config.ips family) (some ⟨p, line.memory⟩)) = some (config'.ips family) := by
    have value : allowValue family line.text = if other = family then some p else none := by rw [allowValue, found]
    rw [value, ← parseFamily_ips parsed]
    split <;> rfl
  unfold readLine at step
  split at step
  · next found =>
    obtain ⟨tok, _, rfl⟩ := Option.map_eq_some_iff.mp step
    simp [allowValue, found]
  · next found =>
    obtain ⟨tok, _, rfl⟩ := Option.map_eq_some_iff.mp step
    simp [allowValue, found]
  · next found => exact allowed found step
  · next found => exact allowed found step
  · next found =>
    cases step
    simp [allowValue, found]

/-- What the lines do to the table of one family. -/
theorem parseAll_allows (family : Family) {config config' : config_t} {read : List Line}
    (folded : read.foldlM readLine config = some config') :
    parseAll family (config.ips family) (allows family read) = some (config'.ips family) := by
  induction read generalizing config with
  | nil => cases folded; rfl
  | cons line read ih =>
    obtain ⟨next, step, folded⟩ := Option.bind_eq_some_iff.mp folded
    have here := readLine_ips family step
    cases value : allowValue family line.text with
    | none =>
      rw [value] at here
      have skipped : allows family (line :: read) = allows family read := List.filterMap_cons_none (by rw [value]; rfl)
      rw [skipped, Option.some.inj here]
      exact ih folded
    | some p =>
      rw [value] at here
      have kept : allows family (line :: read) = ⟨p, line.memory⟩ :: allows family read :=
        List.filterMap_cons_some (by rw [value]; rfl)
      have first : parse family (config.ips family) (some ⟨p, line.memory⟩) = some (next.ips family) := here
      rw [kept, parseAll, List.foldlM_cons, first]
      exact ih folded

def tokenCount (lines : List Line) : Nat := (lines.map fun line => (ipTokens line.text).length).sum

theorem parse_count {family : Family} {this this' : Ips} {line : Line} (parsed : parse family this (some line) = some this') :
    this'.count = this.count + (ipTokens line.text).length := by
  unfold parse at parsed
  dsimp only at parsed
  split at parsed
  · cases parsed
    omega
  · obtain ⟨table, _, rfl⟩ := Option.map_eq_some_iff.mp parsed
    rfl

theorem parseAll_count {family : Family} {this this' : Ips} {lines : List Line} (parsed : parseAll family this lines = some this') :
    this'.count = this.count + tokenCount lines := by
  induction lines generalizing this with
  | nil => cases parsed; rfl
  | cons line lines ih =>
    obtain ⟨next, first, rest⟩ := Option.bind_eq_some_iff.mp parsed
    rw [ih rest, parse_count first, tokenCount, tokenCount, List.map_cons, List.sum_cons]
    omega

/-- The table is that of the last line. -/
theorem parseAll_table {family : Family} {this this' : Ips} {early : List Line} {last : Line}
    (parsed : parseAll family this (early ++ [last]) = some this') (some : this'.count ≠ 0) :
    this'.table = Option.some ((readings family (ipTokens last.text)).flatMap slot ++
      (TSmalloc last.memory ((family.size + 1) * this'.count)).drop
        ((family.size + 1) * (readings family (ipTokens last.text)).length)) := by
  rw [parseAll, List.foldlM_append] at parsed
  obtain ⟨mid, _, step⟩ := Option.bind_eq_some_iff.mp parsed
  rw [List.foldlM_cons] at step
  obtain ⟨reached, stepped, done⟩ := Option.bind_eq_some_iff.mp step
  obtain rfl : reached = this' := Option.some.inj done
  have count := parse_count stepped
  have readable : ∀ token ∈ ipTokens last.text, (readToken family token).isSome = true := by
    have parsed : (parse family mid (Option.some last)).isSome = true := stepped ▸ rfl
    simpa only [readToken_isSome] using parse_isSome.mp parsed
  have filled := fill_eq readable [] (by simp)
    (TSmalloc last.memory ((family.size + 1) * reached.count))
  unfold parse at stepped
  dsimp only at stepped
  rw [if_neg (by omega), ← count] at stepped
  obtain ⟨table, stored, same⟩ := Option.map_eq_some_iff.mp stepped
  rw [← congrArg Ips.table same]
  exact stored.symm.trans filled

end Configured

section Outcome

variable {family : Family}

theorem full_contains {a b : List Byte} (sizes : a.length = b.length) :
    (∀ i < 8 * b.length, bit a i = bit b i) ↔ a = b := by
  constructor
  · intro same
    induction a generalizing b with
    | nil => exact (List.eq_nil_of_length_eq_zero sizes.symm).symm
    | cons x a ih =>
      cases b with
      | nil => cases sizes
      | cons y b =>
        simp only [List.length_cons] at sizes same
        have heads : x = y := by
          apply BitVec.eq_of_getMsbD_eq
          intro i inside
          have first := same i (by omega)
          rwa [bit_head inside, bit_head inside] at first
        have tails : a = b := by
          refine ih (by omega) fun i inside => ?_
          have later := same (8 + i) (by omega)
          rwa [bit_tail, bit_tail] at later
        rw [heads, tails]
  · rintro rfl _ _
    rfl

/-- The table of the default holds the local host alone. -/
theorem isIn_default (client : Client family) :
    isIn family (client.address ++ client.rest) 1 (slot ⟨family.localhost, family.bits⟩) =
      some (decide (client.address = family.localhost)) := by
  have size : family.localhost.length = family.size := by cases family <;> rfl
  have only := isIn_slots [⟨family.localhost, family.bits⟩] (by simpa using size) (by simp) client 0 []
  have same : (Network.mk family.localhost family.bits).Contains client.address ↔ client.address = family.localhost := by
    have bits : family.bits = 8 * family.localhost.length := by rw [size, Family.bits]
    rw [Network.Contains, bits]
    exact full_contains (client.size.trans size.symm)
  simp only [List.flatMap_singleton, List.append_nil, List.length_singleton, Nat.add_zero, List.mem_singleton,
    exists_eq_left, same] at only
  rw [only, isIn]
  split <;> simp_all

/-- The table of a family after the file has been read. -/
def tableOf (family : Family) (read : List Line) (table : List Byte) (count : Nat) : Prop :=
  tokenCount (allows family read) = 0 ∧ table = slot ⟨family.localhost, family.bits⟩ ∧ count = 1 ∨
  tokenCount (allows family read) ≠ 0 ∧ count = tokenCount (allows family read) ∧
    ∀ early last, allows family read = early ++ [last] → table = (readings family (ipTokens last.text)).flatMap slot ++
      (TSmalloc last.memory ((family.size + 1) * count)).drop
        ((family.size + 1) * (readings family (ipTokens last.text)).length)

theorem withDefault_ips (config : config_t) {parse : config_t → Option Line → Option config_t} (other : Family)
    (parses : parse = parseFamily other) : ∃ config', withDefault parse other config = some config' ∧
      ∀ family, config'.ips family = if other = family ∧ (config.ips family).count = 0 then
        ⟨1, some (slot ⟨family.localhost, family.bits⟩)⟩ else config.ips family := by
  subst parses
  by_cases empty : (config.ips other).count = 0
  · refine ⟨{ config with ips := Function.update config.ips other ⟨1, some (slot ⟨other.localhost, other.bits⟩)⟩ }, ?_, ?_⟩
    · rw [withDefault, if_pos empty, parseFamily, parse, other.inet_pton_defaultIp]
      rfl
    · intro family
      by_cases same : other = family
      · subst same
        rw [if_pos ⟨rfl, empty⟩]
        exact Function.update_self ..
      · rw [if_neg fun both => same both.1]
        exact Function.update_of_ne (Ne.symm same) _ _
  · refine ⟨config, by rw [withDefault, if_neg empty], fun family => ?_⟩
    rw [if_neg]
    rintro ⟨rfl, none⟩
    exact empty none

/-- After the lines the defaults are filled in for both families. -/
theorem withDefaults_ips (config : config_t) :
    ∃ config', (withDefault parseIps .inet config).bind (withDefault parseIps6 .inet6) = some config' ∧
      ∀ family, config'.ips family = if (config.ips family).count = 0 then
        ⟨1, some (slot ⟨family.localhost, family.bits⟩)⟩ else config.ips family := by
  obtain ⟨first, filled, ips⟩ := withDefault_ips config .inet rfl
  obtain ⟨second, filled6, ips6⟩ := withDefault_ips first .inet6 rfl
  refine ⟨second, (congrArg (Option.bind · _) filled).trans filled6, fun family => ?_⟩
  rw [ips6, ips]
  cases family <;> simp

theorem new_config_ips (read : List Line) (readable : ∀ line ∈ read, Readable line.text) :
    ∃ config, new_config (some read) = some config ∧ ∀ family, ∃ table count,
      config.ips family = ⟨count, some table⟩ ∧ tableOf family read table count := by
  obtain ⟨lines, folded⟩ := Option.isSome_iff_exists.mp ((foldlM_isSome defaultConfig).mpr readable)
  obtain ⟨config, filled, ips⟩ := withDefaults_ips lines
  refine ⟨config, (congrArg (Option.bind · _) folded).trans filled, fun family => ?_⟩
  have parsed := parseAll_allows family folded
  have count : (lines.ips family).count = tokenCount (allows family read) := by
    rw [parseAll_count parsed]
    exact Nat.zero_add _
  rw [ips]
  by_cases empty : (lines.ips family).count = 0
  · exact ⟨_, _, if_pos empty, Or.inl ⟨count ▸ empty, rfl, rfl⟩⟩
  · rcases List.eq_nil_or_concat (allows family read) with none | ⟨early, last, split⟩
    · rw [count, none] at empty
      exact absurd rfl empty
    · rw [List.concat_eq_append] at split
      rw [split] at parsed
      have stored := parseAll_table parsed empty
      obtain ⟨table, found⟩ : ∃ table, (lines.ips family).table = some table := ⟨_, stored⟩
      refine ⟨table, (lines.ips family).count, ?_, Or.inr ⟨count ▸ empty, count, ?_⟩⟩
      · rw [if_neg empty, ← found]
      · intro early' last' split'
        obtain ⟨-, same⟩ := List.append_inj' (split.symm.trans split') rfl
        rw [← List.singleton_inj.mp same]
        exact Option.some.inj (found.symm.trans stored)

theorem readable_of_new_config {read : List Line} {config : config_t} (configured : new_config (some read) = some config) :
    ∀ line ∈ read, Readable line.text := by
  obtain ⟨lines, folded, _⟩ := Option.bind_eq_some_iff.mp configured
  have parsed : (read.foldlM readLine defaultConfig).isSome = true := by rw [folded]; rfl
  exact (foldlM_isSome defaultConfig).mp parsed

end Outcome

section Conditions

variable (family : Family)

def lastTokens (values : List (List Char)) : List (List Char) := values.getLast?.elim [] ipTokens

/-- No length of the last line is read as more than an address has bits. -/
def InRange (values : List (List Char)) : Prop := ∀ network ∈ readings family (lastTokens values), network.length ≤ family.bits

/-- All tokens are on the last line, each is read as a network, and those that are not well-formed let in nobody that
the others do not. -/
def OneLine (values : List (List Char)) : Prop :=
  (∀ value ∈ values.dropLast, ipTokens value = []) ∧ lastTokens values ≠ [] ∧
    ∀ token ∈ lastTokens values, ∃ network, reading family token = some network ∧
      (network? family token = none → ∀ client : Client family, network.Contains client.address →
        Denoted family values client.address)

def Open (values : List (List Char)) : Prop := ∀ client : Client family, Denoted family values client.address ∧
  ∃ network ∈ readings family (lastTokens values), network.Contains client.address

def Clean (values : List (List Char)) : Prop :=
  values = [] ∨ InRange family values ∧ (OneLine family values ∨ Open family values)

end Conditions

section Exactness

variable {family : Family} {lines : List (List Char)}

def valueTokens (values : List (List Char)) : Nat := (values.map fun value => (ipTokens value).length).sum

theorem tokenCount_allows (family : Family) (read : List Line) :
    tokenCount (allows family read) = valueTokens (values family (read.map Line.text)) := by
  rw [← allows_text, tokenCount, valueTokens, List.map_map]
  rfl

theorem lastTokens_append (early : List (List Char)) (last : List Char) : lastTokens (early ++ [last]) = ipTokens last := by
  rw [lastTokens, List.getLast?_append]
  rfl

theorem valueTokens_append (early : List (List Char)) (last : List Char) :
    valueTokens (early ++ [last]) = valueTokens early + (ipTokens last).length := by
  rw [valueTokens, List.map_append, List.sum_append, valueTokens]
  simp

theorem valueTokens_eq_zero {values : List (List Char)} : valueTokens values = 0 ↔ ∀ value ∈ values, ipTokens value = [] := by
  rw [valueTokens, List.sum_eq_zero_iff_forall_eq_nat]
  simp

theorem not_denoted {values : List (List Char)} (none : valueTokens values = 0) (address : List Byte) :
    ¬Denoted family values address := by
  rintro ⟨value, member, token, listed, _⟩
  rw [valueTokens_eq_zero.mp none value member] at listed
  cases listed

theorem allowed_iff_denoted {address : List Byte} (some : values family lines ≠ []) :
    Allowed family lines address ↔ Denoted family (values family lines) address := by
  simp [Allowed, some]

theorem readings_length (family : Family) (toks : List (List Char)) : (readings family toks).length ≤ toks.length := List.length_filterMap_le ..

theorem lastTokens_length (values : List (List Char)) : (lastTokens values).length ≤ valueTokens values := by
  rcases List.eq_nil_or_concat values with rfl | ⟨early, last, split⟩
  · exact Nat.le_refl _
  · rw [List.concat_eq_append] at split
    rw [split, lastTokens_append, valueTokens_append]
    omega

/-- The table has a slot for each token of the last line that is read as a network, and one for each other token. -/
def unfilled (family : Family) (values : List (List Char)) : Nat :=
  valueTokens values - (readings family (lastTokens values)).length

-- The bytes of the table behind the slots that are filled.
def behind (family : Family) (values : List (List Char)) (memory : Nat → Byte) : List Byte :=
  (TSmalloc memory ((family.size + 1) * valueTokens values)).drop
    ((family.size + 1) * (readings family (lastTokens values)).length)

section Answers

variable {read : List Line} {config : config_t} {vs : List (List Char)}
  (configured : new_config (some read) = some config) (text : values family (read.map Line.text) = vs)
include configured text

theorem allowed_default (none : valueTokens vs = 0) (client : Client family) :
    is_ip_allowed config (some (.ip family client)) = some (decide (client.address = family.localhost)) := by
  obtain ⟨_, same, tables⟩ := new_config_ips _ (readable_of_new_config configured)
  cases same.symm.trans configured
  have count : tokenCount (allows family read) = valueTokens vs := text ▸ tokenCount_allows family read
  obtain ⟨table, slots, ips, ⟨_, rfl, rfl⟩ | ⟨present, _⟩⟩ := tables family
  · simp only [is_ip_allowed, ips, Option.elim_some]
    exact isIn_default client
  · exact absurd (count.trans none) present

theorem allowed_table (present : valueTokens vs ≠ 0) (range : InRange family vs) : ∃ line ∈ read, ∀ client : Client family,
    is_ip_allowed config (some (.ip family client)) =
      if ∃ network ∈ readings family (lastTokens vs), network.Contains client.address then some true
      else isIn family (client.address ++ client.rest) (unfilled family vs) (behind family vs line.memory) := by
  obtain ⟨_, same, tables⟩ := new_config_ips _ (readable_of_new_config configured)
  cases same.symm.trans configured
  have count : tokenCount (allows family read) = valueTokens vs := text ▸ tokenCount_allows family read
  obtain ⟨table, slots, ips, ⟨none, _, _⟩ | ⟨_, rfl, stored⟩⟩ := tables family
  · exact absurd (count.symm.trans none) present
  rcases List.eq_nil_or_concat (allows family read) with none | ⟨early, last, split⟩
  · rw [← count, none] at present
    exact absurd rfl present
  rw [List.concat_eq_append] at split
  have tokens : lastTokens vs = ipTokens last.text := by
    rw [← text, ← allows_text, split, List.map_append, List.map_singleton, lastTokens_append]
  have listed : last ∈ allows family read := split ▸ List.mem_append_right early List.mem_cons_self
  obtain ⟨line, member, kept⟩ := List.mem_filterMap.mp listed
  obtain ⟨p, _, rfl⟩ := Option.map_eq_some_iff.mp kept
  refine ⟨line, member, fun client => ?_⟩
  have room := Nat.le_trans (readings_length family _) (lastTokens_length vs)
  have whole := isIn_slots _ (fun network read => (readings_bounds network read).1) range client (unfilled family vs)
    (behind family vs line.memory)
  rw [unfilled, Nat.add_sub_cancel' room] at whole
  simp only [is_ip_allowed, ips, Option.elim_some]
  rw [stored early _ split, count, ← tokens]
  exact whole

end Answers

theorem oneLine_counts {vs : List (List Char)} (oneLine : OneLine family vs) :
    valueTokens vs = (lastTokens vs).length ∧ (readings family (lastTokens vs)).length = (lastTokens vs).length := by
  obtain ⟨early, some, read⟩ := oneLine
  constructor
  · rcases List.eq_nil_or_concat vs with rfl | ⟨front, last, split⟩
    · exact absurd rfl some
    · rw [List.concat_eq_append] at split
      rw [split, List.dropLast_concat] at early
      rw [split, lastTokens_append, valueTokens_append, valueTokens_eq_zero.mpr early, Nat.zero_add]
  · rw [readings, List.length_filterMap_eq_countP, List.countP_eq_length]
    intro token member
    obtain ⟨network, found, _⟩ := read token member
    rw [found]
    rfl

theorem oneLine_allowed {vs : List (List Char)} (oneLine : OneLine family vs) (client : Client family) :
    (∃ network ∈ readings family (lastTokens vs), network.Contains client.address) ↔ Denoted family vs client.address := by
  obtain ⟨early, some, read⟩ := oneLine
  constructor
  · rintro ⟨network, listed, inside⟩
    obtain ⟨token, member, found⟩ := List.mem_filterMap.mp listed
    obtain ⟨same, reads, covered⟩ := read token member
    cases found.symm.trans reads
    cases denotes : network? family token with
    | none => exact covered denotes client inside
    | some other =>
      have reads := reading_eq_some.mpr (readToken_of_network denotes)
      cases found.symm.trans reads
      rcases List.eq_nil_or_concat vs with rfl | ⟨front, last, split⟩
      · cases member
      · rw [List.concat_eq_append] at split
        rw [split, lastTokens_append] at member
        exact ⟨last, by simp [split], token, member, network, denotes, inside⟩
  · rintro ⟨value, listed, token, member, network, denotes, inside⟩
    have onLast : token ∈ lastTokens vs := by
      rcases List.eq_nil_or_concat vs with rfl | ⟨front, last, split⟩
      · cases listed
      · rw [List.concat_eq_append] at split
        rw [split] at listed early ⊢
        rw [List.dropLast_concat] at early
        rw [lastTokens_append]
        rcases List.mem_append.mp listed with before | here
        · rw [early value before] at member
          cases member
        · exact List.mem_singleton.mp here ▸ member
    exact ⟨network, List.mem_filterMap.mpr ⟨token, onLast, reading_eq_some.mpr (readToken_of_network denotes)⟩, inside⟩

theorem clean_present {vs : List (List Char)} (how : OneLine family vs ∨ Open family vs) (client : Client family) :
    valueTokens vs ≠ 0 := by
  intro zero
  rcases how with oneLine | opened
  · have count := (oneLine_counts oneLine).1
    exact oneLine.2.1 (List.eq_nil_of_length_eq_zero (by omega))
  · exact not_denoted zero _ (opened client).1

theorem exact_of_clean (readable : ∀ line ∈ lines, Readable line) (clean : ∀ family, Clean family (values family lines)) :
    Exact lines := by
  rintro read rfl
  obtain ⟨config, configured, _⟩ := new_config_ips read fun line member => readable _ (List.mem_map_of_mem member)
  refine ⟨config, configured, fun family client => ?_⟩
  rcases clean family with none | ⟨range, how⟩
  · have zero : valueTokens (values family (read.map Line.text)) = 0 := by rw [none]; rfl
    refine ⟨_, allowed_default configured rfl zero client, ?_⟩
    rw [decide_eq_true_eq, Allowed, or_iff_left (not_denoted zero _), and_iff_right none]
  · have present := clean_present how client
    obtain ⟨line, _, answer⟩ := allowed_table configured rfl present range
    have some : values family (read.map Line.text) ≠ [] := by
      intro none
      rw [none] at present
      exact present rfl
    rw [answer]
    rcases how with oneLine | opened
    · have full : unfilled family (values family (read.map Line.text)) = 0 := by
        rw [unfilled, (oneLine_counts oneLine).1, (oneLine_counts oneLine).2, Nat.sub_self]
      rw [full, allowed_iff_denoted some, ← oneLine_allowed oneLine client]
      split
      · next inside => exact ⟨true, rfl, by simp [inside]⟩
      · next outside => exact ⟨false, rfl, by simp [outside]⟩
    · obtain ⟨denoted, inside⟩ := opened client
      rw [if_pos inside]
      exact ⟨true, rfl, by simp [allowed_iff_denoted some, denoted]⟩

-- What `TSmalloc` returns may have been filled with one byte.
def filledWith (b : Byte) (lines : List (List Char)) : List Line := lines.map fun text => ⟨text, fun _ => b⟩

theorem filledWith_text (b : Byte) (lines : List (List Char)) : (filledWith b lines).map Line.text = lines := by
  rw [filledWith, List.map_map]
  exact List.map_id _

theorem behind_eq {vs : List (List Char)} {b : Byte} {line : Line} (member : line ∈ filledWith b lines) :
    behind family vs line.memory = leftover family (unfilled family vs) b := by
  obtain ⟨text, _, rfl⟩ := List.mem_map.mp member
  have same : TSmalloc (fun _ => b) ((family.size + 1) * valueTokens vs) = List.replicate ((family.size + 1) * valueTokens vs) b := by
    simp [TSmalloc]
  rw [behind, same, List.drop_replicate, ← Nat.mul_sub, leftover, unfilled]

def localClient (family : Family) : Client family where
  address := family.localhost
  rest := List.replicate family.room 0
  size := by cases family <;> rfl
  restSize := List.length_replicate

theorem exists_first (client : Client family) : ∃ a ip, client.address ++ client.rest = a :: ip := by
  have size := client.size
  cases split : client.address with
  | nil =>
    rw [split] at size
    exact absurd size (Nat.ne_of_lt family.size_pos)
  | cons a ip => exact ⟨a, ip ++ client.rest, rfl⟩

theorem oneLine_of_unfilled {vs : List (List Char)} (present : valueTokens vs ≠ 0) (full : unfilled family vs = 0)
    (allowed : ∀ client : Client family, (∃ network ∈ readings family (lastTokens vs), network.Contains client.address) →
      Denoted family vs client.address) : OneLine family vs := by
  have counts := readings_length family (lastTokens vs)
  have within := lastTokens_length vs
  rw [unfilled] at full
  have all : (readings family (lastTokens vs)).length = (lastTokens vs).length := by omega
  refine ⟨?_, ?_, ?_⟩
  · rcases List.eq_nil_or_concat vs with rfl | ⟨front, last, split⟩
    · exact absurd rfl present
    · rw [List.concat_eq_append] at split
      rw [split, lastTokens_append] at all
      rw [split, valueTokens_append, lastTokens_append] at full
      rw [split, List.dropLast_concat]
      exact valueTokens_eq_zero.mp (by omega)
  · intro none
    have empty : (lastTokens vs).length = 0 := by rw [none]; rfl
    omega
  · intro token member
    rw [readings, List.length_filterMap_eq_countP, List.countP_eq_length] at all
    obtain ⟨network, read⟩ := Option.isSome_iff_exists.mp (all token member)
    refine ⟨network, read, fun _ client inside => allowed client ⟨network, ?_, inside⟩⟩
    exact List.mem_filterMap.mpr ⟨token, member, read⟩

theorem clean_of_exact (range : InRange family (values family lines)) (exact : Exact lines) : Clean family (values family lines) := by
  by_cases none : values family lines = []
  · exact Or.inl none
  have answers (b : Byte) := exact (filledWith b lines) (filledWith_text b lines)
  have text (b : Byte) : values family ((filledWith b lines).map Line.text) = values family lines := by
    rw [filledWith_text]
  refine Or.inr ⟨range, ?_⟩
  -- A line without tokens lets in the local host.
  have present : valueTokens (values family lines) ≠ 0 := by
    intro zero
    obtain ⟨config, configured, decided⟩ := answers 0
    obtain ⟨allowed, answer, right⟩ := decided family (localClient family)
    cases answer.symm.trans (allowed_default configured (text 0) zero _)
    have denoted := (allowed_iff_denoted none).mp (right.mp (decide_eq_true (Eq.refl family.localhost)))
    exact not_denoted zero _ denoted
  have outcome (b : Byte) (client : Client family) :
      (if ∃ network ∈ readings family (lastTokens (values family lines)), network.Contains client.address then some true
        else isIn family (client.address ++ client.rest) (unfilled family (values family lines))
          (leftover family (unfilled family (values family lines)) b)) = some true ↔
        Denoted family (values family lines) client.address := by
    obtain ⟨config, configured, decided⟩ := answers b
    obtain ⟨allowed, answer, right⟩ := decided family client
    obtain ⟨line, member, table⟩ := allowed_table configured (text b) present range
    rw [← behind_eq member, ← table, answer, ← allowed_iff_denoted none, ← right]
    simp
  by_cases full : unfilled family (values family lines) = 0
  · refine Or.inl (oneLine_of_unfilled present full fun client inside => ?_)
    exact (outcome 0 client).mp (if_pos inside)
  · refine Or.inr fun client => ?_
    obtain ⟨a, ip, first⟩ := exists_first client
    obtain ⟨count, more⟩ := Nat.exists_eq_succ_of_ne_zero full
    have zeros := outcome 0 client
    rw [more, first, isIn_zeros, ite_self] at zeros
    have denoted := zeros.mp rfl
    obtain ⟨b, large, other⟩ : ∃ b : Byte, 8 ≤ b.toNat ∧ a ≠ b := by
      by_cases eight : a = 8
      · exact ⟨9, by decide, by rw [eight]; decide⟩
      · exact ⟨8, by decide, eight⟩
    have others := outcome b client
    rw [first, isIn_other _ large other] at others
    refine ⟨denoted, ?_⟩
    by_contra outside
    have answer := others.mpr denoted
    rw [if_neg outside] at answer
    cases answer

end Exactness

section WellFormed

variable {family : Family}

theorem network_range {token : List Char} {network : Network} (denotes : network? family token = some network) :
    network.length ≤ family.bits := by
  unfold network? at denotes
  split at denotes
  · obtain ⟨address, _, rfl⟩ := Option.map_eq_some_iff.mp denotes
    exact Nat.le_refl _
  · split at denotes
    · next decimal =>
      obtain ⟨address, _, rfl⟩ := Option.map_eq_some_iff.mp denotes
      exact decimal.2.2
    · cases denotes

/-- One line of well-formed tokens is clean. -/
theorem clean_of_wellFormed {vs : List (List Char)} (early : ∀ value ∈ vs.dropLast, ipTokens value = [])
    (present : lastTokens vs ≠ []) (wellFormed : ∀ token ∈ lastTokens vs, (network? family token).isSome = true) :
    Clean family vs := by
  have denoted {token : List Char} (member : token ∈ lastTokens vs) :
      ∃ network, network? family token = some network ∧ reading family token = some network := by
    obtain ⟨network, denotes⟩ := Option.isSome_iff_exists.mp (wellFormed token member)
    exact ⟨network, denotes, reading_eq_some.mpr (readToken_of_network denotes)⟩
  refine Or.inr ⟨fun network listed => ?_, Or.inl ⟨early, present, fun token member => ?_⟩⟩
  · obtain ⟨token, member, found⟩ := List.mem_filterMap.mp listed
    obtain ⟨other, denotes, read⟩ := denoted member
    cases found.symm.trans read
    exact network_range denotes
  · obtain ⟨network, denotes, read⟩ := denoted member
    refine ⟨network, read, fun malformed => ?_⟩
    cases malformed.symm.trans denotes

end WellFormed

/-- Where no length of a last line is out of range, the text allows exactly those that are let in if and only if it is
clean; a clean text has no such length. -/
theorem exact_iff (lines : List (List Char)) :
    (∀ family, InRange family (values family lines)) ∧ Exact lines ↔
      (∀ line ∈ lines, Readable line) ∧ ∀ family, Clean family (values family lines) := by
  constructor
  · rintro ⟨range, exact⟩
    refine ⟨?_, fun family => clean_of_exact (range family) exact⟩
    obtain ⟨config, configured, _⟩ := exact (filledWith 0 lines) (filledWith_text 0 lines)
    have readable := readable_of_new_config configured
    exact fun line member => readable ⟨line, fun _ => 0⟩ (List.mem_map_of_mem member)
  · rintro ⟨readable, clean⟩
    refine ⟨fun family => ?_, exact_of_clean readable clean⟩
    rcases clean family with none | ⟨range, _⟩
    · rw [none]
      exact fun network listed => absurd listed List.not_mem_nil
    · exact range

def twoLines : List (List Char) := ["allow_ip=10.0.0.1\n".toList, "allow_ip=10.0.0.2\n".toList]

def stranger : Client .inet := ⟨[192, 168, 1, 1], List.replicate 8 0, rfl, rfl⟩

theorem stranger_allowed : (new_config (some (filledWith 0 twoLines))).bind
    (fun config => is_ip_allowed config (some (.ip .inet stranger))) = some true := by decide +kernel

theorem not_exact : ¬∀ lines, Exact lines := by
  intro exact
  obtain ⟨config, configured, decided⟩ := exact twoLines (filledWith 0 twoLines) (filledWith_text 0 twoLines)
  obtain ⟨allowed, answer, right⟩ := decided .inet stranger
  have same := stranger_allowed
  rw [configured, Option.bind_some, answer] at same
  have claimed := right.mp (Option.some.inj same)
  revert claimed
  decide +kernel

end Astats
