import TrafficControl.TrafficRouter.Dns.Record

set_option autoImplicit false

namespace TrafficControl.TrafficRouter.Dns

open Record

-- `signed` tells a SignedZoneKey from a ZoneKey.
structure ZoneKey where
  name : Name
  records : List Record
  initialHashCode : BitVec 32
  signed : Bool
deriving DecidableEq

namespace ZoneKey

def new (signed : Bool) (name : Name) (records : List Record) : ZoneKey :=
  let records := sort records
  { name, records, initialHashCode := listHashCode records, signed }

def equals (this other : ZoneKey) : Bool :=
  this.name.equals other.name && this.initialHashCode == other.initialHashCode && this.signed == other.signed

end ZoneKey

structure Zone where
  origin : Name
  records : List Record

-- `SignatureManager.signZone`, whatever the keys and the clock say. It may add records to the
-- list it was given (`left`); `none` is an exception.
structure Signer where
  signZone : Name → List Record → List Record × Option (List Record)
  left_plain : ∀ name records, SameRecords (plain (signZone name records).1) (plain records)
  signed_plain : ∀ name records result, (signZone name records).2 = some result →
    SameRecords (plain result) (plain records)

-- What surrounds a call: the signer, the zones signed at the time, `new Zone` and `newName`.
structure Environment where
  signer : Signer
  signsZone : Name → Bool
  acceptsZone : Name → List Record → Bool
  newName : String → Option Name

structure StaticZone where
  origin : Name
  soa : Record
  ns : List Record
  soa_type : soa.type = SOA
  ns_type : ∀ record ∈ ns, record.type = NS

structure Call where
  staticZone : StaticZone
  name : Name
  addresses : List InetRecord
  dnssecRequest : Bool

abbrev ZoneCache := List (ZoneKey × Zone)

section Model

variable (env : Environment)

def newZone (origin : Name) (records : List Record) : Option Zone :=
  if env.acceptsZone origin records then some ⟨origin, records⟩ else none

-- The key's own list is what the signer works on.
def loadZone (zoneKey : ZoneKey) : ZoneKey × Option Zone :=
  if zoneKey.signed then
    let (left, signed) := env.signer.signZone zoneKey.name zoneKey.records
    ({ zoneKey with records := left }, signed.bind (newZone env zoneKey.name))
  else (zoneKey, newZone env zoneKey.name zoneKey.records)

-- The outer `none` is a TextParseException, the inner one a record that is left out.
def createRecord (name : Name) (address : InetRecord) : Option (Option Record) :=
  match address.aliasName, address.ad with
  | some aliasName, _ => (env.newName aliasName).map fun target => some ⟨name, CNAME, IN, address.ttl, [.name target]⟩
  | none, some ad =>
    if ad.isInet6 then some (some ⟨name, AAAA, IN, address.ttl, [.octets ad.bytes]⟩)
    else some (some ⟨name, A, IN, address.ttl, [.octets ad.bytes]⟩)
  | none, none => some none

def createZoneRecords (staticZone : StaticZone) : List Record := staticZone.soa :: staticZone.ns

def createRecords (name : Name) : List InetRecord → Option (List Record)
  | [] => some []
  | address :: addresses =>
    match createRecord env name address with
    | none => none
    | some none => createRecords name addresses
    | some (some record) => (createRecords name addresses).map (record :: ·)

def createdRecords (call : Call) : Option (List Record) := createRecords env call.name call.addresses

def generateDynamicZoneKey (name : Name) (list : List Record) (dnssecRequest : Bool) : ZoneKey :=
  if !dnssecRequest then .new false name list
  else if env.signsZone name then .new true name list
  else .new false name list

def getIfPresent (cache : ZoneCache) (zoneKey : ZoneKey) : Option Zone :=
  (cache.find? fun entry => entry.1.equals zoneKey).map (·.2)

def fillDynamicZone (dzc : ZoneCache) (call : Call) : ZoneCache × Option Zone :=
  match createdRecords env call with
  | none => (dzc, none)
  | some created =>
    if created.length = 0 then (dzc, none)
    else
      let records := createZoneRecords call.staticZone ++ created
      let zoneKey := generateDynamicZoneKey env call.staticZone.origin records call.dnssecRequest
      match getIfPresent dzc zoneKey with
      | some zone => (dzc, some zone)
      | none =>
        match loadZone env zoneKey with
        | (zoneKey, some zone) => (dzc ++ [(zoneKey, zone)], some zone)
        | (zoneKey, none) => (dzc, newZone env call.staticZone.origin zoneKey.records)

-- `LoadingCache.refresh` of a cached key; a failed load keeps the old zone.
def refresh (dzc : ZoneCache) (zoneKey : ZoneKey) : ZoneCache :=
  dzc.map fun entry =>
    if entry.1.equals zoneKey then
      match loadZone env entry.1 with
      | (key, some zone) => (key, zone)
      | (key, none) => (key, entry.2)
    else entry

def evict (dzc : ZoneCache) (zoneKey : ZoneKey) : ZoneCache :=
  dzc.filter fun entry => !entry.1.equals zoneKey

end Model

inductive Event where
  | fill (env : Environment) (call : Call)
  | refresh (env : Environment) (zoneKey : ZoneKey)
  | evict (zoneKey : ZoneKey)

def step (dzc : ZoneCache) : Event → ZoneCache
  | .fill env call => (fillDynamicZone env dzc call).1
  | .refresh env zoneKey => refresh env dzc zoneKey
  | .evict zoneKey => evict dzc zoneKey

def run (history : List Event) : ZoneCache := history.foldl step []

-- The call's own records.
def expected (call : Call) (created : List Record) : List Record :=
  createZoneRecords call.staticZone ++ created

def keyOf (env : Environment) (call : Call) (created : List Record) : ZoneKey :=
  generateDynamicZoneKey env call.staticZone.origin (expected call created) call.dnssecRequest

/-- The zone holds the call's records and, besides them, DNSSEC records if it is to be signed. -/
def Answers (env : Environment) (call : Call) (zone : Zone) : Prop :=
  ∃ created, createdRecords env call = some created ∧
    SameRecords (plain zone.records) (expected call created) ∧
    ((keyOf env call created).signed = false → ∀ record ∈ zone.records, record.dnssec = false)

-- No cached key passes for the call's key with other records of its own.
def NoAlias (env : Environment) (dzc : ZoneCache) (call : Call) : Prop :=
  ∀ created, createdRecords env call = some created → created ≠ [] →
    ∀ entry ∈ dzc, entry.1.equals (keyOf env call created) →
      SameRecords (plain entry.1.records) (expected call created)

structure Loaded (entry : ZoneKey × Zone) : Prop where
  zone_plain : SameRecords (plain entry.2.records) (plain entry.1.records)
  key_unsigned : entry.1.signed = false → ∀ record ∈ entry.1.records, record.dnssec = false
  zone_unsigned : entry.1.signed = false → ∀ record ∈ entry.2.records, record.dnssec = false

structure Correct (dzc : ZoneCache) : Prop where
  loaded : ∀ entry ∈ dzc, Loaded entry
  distinct : dzc.Pairwise fun a b => a.1.equals b.1 = false

theorem equals_iff (this other : ZoneKey) : this.equals other = true ↔
    this.name.canonical = other.name.canonical ∧ this.initialHashCode = other.initialHashCode ∧
      this.signed = other.signed := by
  simp [ZoneKey.equals, Name.equals, and_assoc]

-- Loading a zone changes nothing of its key but the records.
theorem loadZone_key (env : Environment) (zoneKey : ZoneKey) :
    (loadZone env zoneKey).1 = { zoneKey with records := (loadZone env zoneKey).1.records } := by
  unfold loadZone
  split_ifs <;> rfl

theorem loadZone_plain (env : Environment) (zoneKey : ZoneKey) :
    SameRecords (plain (loadZone env zoneKey).1.records) (plain zoneKey.records) := by
  unfold loadZone
  split_ifs
  · exact env.signer.left_plain _ _
  · exact sameRecords_refl _

theorem loadZone_unsigned {env : Environment} {zoneKey : ZoneKey} (unsigned : zoneKey.signed = false) :
    (loadZone env zoneKey).1.records = zoneKey.records := by
  unfold loadZone
  rw [if_neg (by simp [unsigned])]

theorem newZone_records {env : Environment} {origin : Name} {records : List Record} {zone : Zone}
    (made : newZone env origin records = some zone) : zone.records = records := by
  unfold newZone at made
  split_ifs at made
  exact (congrArg Zone.records (Option.some.inj made)).symm

theorem loadZone_loaded {env : Environment} {zoneKey : ZoneKey} {zone : Zone}
    (unsigned : zoneKey.signed = false → ∀ record ∈ zoneKey.records, record.dnssec = false)
    (made : (loadZone env zoneKey).2 = some zone) : Loaded ((loadZone env zoneKey).1, zone) := by
  unfold loadZone at made ⊢
  split_ifs at made ⊢ with signed
  · obtain ⟨result, signedRecords, made⟩ := Option.bind_eq_some_iff.mp made
    refine ⟨?_, fun absent => ?_, fun absent => ?_⟩
    · rw [newZone_records made]
      exact (env.signer.signed_plain _ _ _ signedRecords).trans (env.signer.left_plain _ _).symm
    · simp [signed] at absent
    · simp [signed] at absent
  · rw [Bool.not_eq_true] at signed
    have records := newZone_records made
    exact ⟨records ▸ sameRecords_refl _, unsigned, fun _ => records ▸ unsigned signed⟩

theorem createRecord_plain {env : Environment} {name : Name} {address : InetRecord} {record : Record}
    (made : createRecord env name address = some (some record)) : record.dnssec = false := by
  unfold createRecord at made
  split at made
  · obtain ⟨target, _, same⟩ := Option.map_eq_some_iff.mp made
    obtain rfl := Option.some.inj same
    rfl
  · split_ifs at made <;> obtain rfl := Option.some.inj (Option.some.inj made) <;> rfl
  · simp at made

theorem createRecords_plain {env : Environment} {name : Name} {addresses : List InetRecord}
    {created : List Record} (made : createRecords env name addresses = some created) :
    ∀ record ∈ created, record.dnssec = false := by
  induction addresses generalizing created with
  | nil => simp_all [createRecords]
  | cons address addresses ih =>
    rw [createRecords] at made
    split at made
    · contradiction
    · exact ih made
    · next record first =>
      obtain ⟨rest, tail, rfl⟩ := Option.map_eq_some_iff.mp made
      intro other member
      rcases List.mem_cons.mp member with rfl | member
      · exact createRecord_plain first
      · exact ih tail other member

theorem keyOf_spec (env : Environment) (call : Call) (created : List Record) :
    (keyOf env call created).name = call.staticZone.origin ∧
      (keyOf env call created).records = sort (expected call created) := by
  unfold keyOf generateDynamicZoneKey
  split_ifs <;> exact ⟨rfl, rfl⟩

theorem expected_plain {env : Environment} {call : Call} {created : List Record}
    (read : createdRecords env call = some created) : ∀ record ∈ expected call created, record.dnssec = false := by
  intro record member
  have static {type : BitVec 16} (same : record.type = type) (listed : type = SOA ∨ type = NS) :
      record.dnssec = false := by
    unfold Record.dnssec
    rcases listed with rfl | rfl <;> rw [same] <;> decide
  simp only [expected, createZoneRecords, List.cons_append, List.mem_cons, List.mem_append] at member
  rcases member with rfl | member | member
  · exact static call.staticZone.soa_type (Or.inl rfl)
  · exact static (call.staticZone.ns_type record member) (Or.inr rfl)
  · exact createRecords_plain read record member

theorem keyOf_unsigned {env : Environment} {call : Call} {created : List Record}
    (read : createdRecords env call = some created) : ∀ record ∈ (keyOf env call created).records, record.dnssec = false := by
  rw [(keyOf_spec env call created).2]
  intro record member
  exact expected_plain read record ((sort_perm _).mem_iff.mp member)

theorem getIfPresent_mem {dzc : ZoneCache} {zoneKey : ZoneKey} {zone : Zone}
    (hit : getIfPresent dzc zoneKey = some zone) :
    ∃ entry ∈ dzc, entry.1.equals zoneKey = true ∧ entry.2 = zone := by
  obtain ⟨entry, found, same⟩ := Option.map_eq_some_iff.mp hit
  have equal := List.find?_some found
  exact ⟨entry, List.mem_of_find?_eq_some found, equal, same⟩

theorem getIfPresent_none {dzc : ZoneCache} {zoneKey : ZoneKey} (miss : getIfPresent dzc zoneKey = none) :
    ∀ entry ∈ dzc, entry.1.equals zoneKey = false := by
  simpa [getIfPresent] using miss

theorem fill_correct {env : Environment} {dzc : ZoneCache} (correct : Correct dzc) (call : Call) :
    Correct (fillDynamicZone env dzc call).1 := by
  unfold fillDynamicZone
  split
  · exact correct
  · next created read =>
    split_ifs with none
    · exact correct
    · dsimp only
      split
      · exact correct
      · next miss =>
        split
        · next key zone load =>
          have made : (loadZone env (keyOf env call created)).2 = some zone := by
            rw [keyOf, expected, load]
          have newKey : key = (loadZone env (keyOf env call created)).1 := by rw [keyOf, expected, load]
          have entry := loadZone_loaded (fun _ => keyOf_unsigned read) made
          refine ⟨fun other member => ?_, List.pairwise_append.mpr ⟨correct.distinct, by simp, ?_⟩⟩
          · rcases List.mem_append.mp member with member | member
            · exact correct.loaded other member
            · obtain rfl := List.mem_singleton.mp member
              exact newKey ▸ entry
          · intro old member new inNew
            obtain rfl := List.mem_singleton.mp inNew
            rw [newKey, loadZone_key]
            exact getIfPresent_none miss old member
        · exact correct

theorem refresh_correct {env : Environment} {dzc : ZoneCache} (correct : Correct dzc) (zoneKey : ZoneKey) :
    Correct (refresh env dzc zoneKey) := by
  have reloaded (entry : ZoneKey × Zone) (old : Loaded entry) :
      Loaded (match loadZone env entry.1 with
        | (key, some zone) => (key, zone)
        | (key, none) => (key, entry.2)) := by
    split
    · next key zone load =>
      have made : (loadZone env entry.1).2 = some zone := by rw [load]
      have entry' := loadZone_loaded old.key_unsigned made
      rwa [load] at entry'
    · next key load =>
      obtain rfl : (loadZone env entry.1).1 = key := by rw [load]
      have sameSigned : (loadZone env entry.1).1.signed = entry.1.signed := by rw [loadZone_key]
      refine ⟨old.zone_plain.trans (loadZone_plain env entry.1).symm, fun unsigned => ?_, fun unsigned => ?_⟩
      · change ∀ record ∈ (loadZone env entry.1).1.records, record.dnssec = false
        rw [loadZone_unsigned (sameSigned ▸ unsigned)]
        exact old.key_unsigned (sameSigned ▸ unsigned)
      · exact old.zone_unsigned (sameSigned ▸ unsigned)
  refine ⟨fun entry member => ?_, List.pairwise_map.mpr (correct.distinct.imp fun {a b} different => ?_)⟩
  · obtain ⟨old, inCache, rfl⟩ := List.mem_map.mp member
    split_ifs
    · exact reloaded old (correct.loaded old inCache)
    · exact correct.loaded old inCache
  · have sameKey (entry : ZoneKey × Zone) : ∃ records,
        (if entry.1.equals zoneKey then
          match loadZone env entry.1 with
          | (key, some zone) => (key, zone)
          | (key, none) => (key, entry.2)
        else entry).1 = { entry.1 with records } := by
      split_ifs
      · refine ⟨(loadZone env entry.1).1.records, ?_⟩
        rw [← loadZone_key]
        split <;> next load => rw [load]
      · exact ⟨entry.1.records, rfl⟩
    obtain ⟨_, left⟩ := sameKey a
    obtain ⟨_, right⟩ := sameKey b
    rw [left, right]
    exact different

theorem evict_correct {dzc : ZoneCache} (correct : Correct dzc) (zoneKey : ZoneKey) :
    Correct (evict dzc zoneKey) :=
  ⟨fun entry member => correct.loaded entry (List.mem_filter.mp member).1,
    correct.distinct.sublist List.filter_sublist⟩

theorem run_correct (history : List Event) : Correct (run history) := by
  have initial : Correct [] := ⟨by simp, .nil⟩
  refine List.foldlRecOn history step initial fun dzc correct event _ => ?_
  cases event with
  | fill env call => exact fill_correct correct call
  | refresh env zoneKey => exact refresh_correct correct zoneKey
  | evict zoneKey => exact evict_correct correct zoneKey

theorem fill_hit {env : Environment} {dzc : ZoneCache} (correct : Correct dzc) {call : Call}
    {created : List Record} (read : createdRecords env call = some created) (nonempty : created ≠ [])
    {entry : ZoneKey × Zone} (member : entry ∈ dzc) (equal : entry.1.equals (keyOf env call created) = true) :
    (fillDynamicZone env dzc call).2 = some entry.2 := by
  have present : getIfPresent dzc (keyOf env call created) = some entry.2 := by
    obtain ⟨before, after, rfl⟩ := List.append_of_mem member
    obtain ⟨_, _, across⟩ := List.pairwise_append.mp correct.distinct
    have earlier : before.find? (fun other => other.1.equals (keyOf env call created)) = none := by
      refine List.find?_eq_none.mpr fun other inBefore same => ?_
      have different := across other inBefore entry (by simp)
      rw [← Bool.not_eq_true, equals_iff] at different
      rw [equals_iff] at same equal
      exact different ⟨same.1.trans equal.1.symm, same.2.1.trans equal.2.1.symm,
        same.2.2.trans equal.2.2.symm⟩
    rw [getIfPresent, List.find?_append, earlier, Option.none_or, List.find?_cons, equal]
    rfl
  unfold fillDynamicZone
  rw [read]
  dsimp only
  rw [if_neg (by simpa using nonempty)]
  change (match getIfPresent dzc (keyOf env call created) with
    | some zone => (dzc, some zone)
    | none => _).2 = _
  rw [present]

-- A returned zone comes from the cache or was made from the call's own key.
theorem fill_returned {env : Environment} {dzc : ZoneCache} {call : Call} {zone : Zone}
    (returned : (fillDynamicZone env dzc call).2 = some zone) :
    ∃ created, createdRecords env call = some created ∧ created ≠ [] ∧
      ((∃ entry ∈ dzc, entry.1.equals (keyOf env call created) = true ∧ entry.2 = zone) ∨
        ∃ key, key.signed = (keyOf env call created).signed ∧ Loaded (key, zone) ∧
          SameRecords (plain key.records) (plain (keyOf env call created).records)) := by
  unfold fillDynamicZone at returned
  split at returned
  · contradiction
  · next created read =>
    split_ifs at returned with none
    refine ⟨created, read, fun empty => none (by simp [empty]), ?_⟩
    change (match getIfPresent dzc (keyOf env call created) with
      | some zone => (dzc, some zone)
      | Option.none =>
        match loadZone env (keyOf env call created) with
        | (zoneKey, some zone) => (dzc ++ [(zoneKey, zone)], some zone)
        | (zoneKey, Option.none) => (dzc, newZone env call.staticZone.origin zoneKey.records)).2 = _ at returned
    have key := loadZone_key env (keyOf env call created)
    have sameSigned : (loadZone env (keyOf env call created)).1.signed = (keyOf env call created).signed := by
      rw [key]
    have keyUnsigned (unsigned : (keyOf env call created).signed = false) :
        ∀ record ∈ (loadZone env (keyOf env call created)).1.records, record.dnssec = false := by
      rw [loadZone_unsigned unsigned]
      exact keyOf_unsigned read
    cases hit : getIfPresent dzc (keyOf env call created) with
    | some cached =>
      rw [hit] at returned
      exact Or.inl (Option.some.inj returned ▸ getIfPresent_mem hit)
    | none =>
      right
      refine ⟨(loadZone env (keyOf env call created)).1, sameSigned, ?_, loadZone_plain env _⟩
      rw [hit] at returned
      dsimp only at returned
      split at returned
      · next load =>
        apply loadZone_loaded fun _ => keyOf_unsigned read
        rw [load]
        exact returned
      · next load =>
        have records := newZone_records returned
        rw [load] at sameSigned keyUnsigned ⊢
        exact ⟨records ▸ sameRecords_refl _, fun unsigned => keyUnsigned (sameSigned ▸ unsigned),
          fun unsigned => records ▸ keyUnsigned (sameSigned ▸ unsigned)⟩

-- A hit answers rightly exactly when the cached key was made from the call's own records.
theorem fillDynamicZone_answers_iff (history : List Event) (env : Environment) (call : Call) :
    (∀ zone, (fillDynamicZone env (run history) call).2 = some zone → Answers env call zone) ↔
      NoAlias env (run history) call := by
  have correct := run_correct history
  constructor
  · intro answers created read nonempty entry member equal
    obtain ⟨created', read', same, _⟩ := answers entry.2 (fill_hit correct read nonempty member equal)
    obtain rfl : created = created' := Option.some.inj (read.symm.trans read')
    exact (correct.loaded entry member).zone_plain.symm.trans same
  · intro noAlias zone returned
    obtain ⟨created, read, nonempty, source⟩ := fill_returned returned
    refine ⟨created, read, ?_⟩
    rcases source with ⟨entry, member, equal, rfl⟩ | ⟨key, sameSigned, loaded, same⟩
    · have cached := correct.loaded entry member
      have sameSigned := ((equals_iff _ _).mp equal).2.2
      exact ⟨cached.zone_plain.trans (noAlias created read nonempty entry member equal),
        fun unsigned => cached.zone_unsigned (sameSigned.trans unsigned)⟩
    · refine ⟨loaded.zone_plain.trans (same.trans ?_), fun unsigned => loaded.zone_unsigned (sameSigned.trans unsigned)⟩
      rw [(keyOf_spec env call created).2]
      have own := plain_sort (expected call created)
      rwa [plain_eq_self (expected_plain read)] at own

section Collision

def nameOf (labels : List String) : Name :=
  ⟨labels.map fun label => label.toList.map fun c => BitVec.ofNat 8 c.toNat⟩

def unsignedEnvironment : Environment where
  signer := ⟨fun _ records => (records, some records), fun _ _ => sameRecords_refl _,
    fun _ _ _ same => Option.some.inj same ▸ sameRecords_refl _⟩
  signsZone _ := false
  acceptsZone _ _ := true
  newName _ := none

def exampleZone : StaticZone where
  origin := nameOf ["ds", "cdn", "com"]
  soa := ⟨nameOf ["ds", "cdn", "com"], SOA, IN, 86400, [.name (nameOf ["tr", "cdn", "com"])]⟩
  ns := [⟨nameOf ["ds", "cdn", "com"], NS, IN, 3600, [.name (nameOf ["tr", "cdn", "com"])]⟩]
  soa_type := rfl
  ns_type := by simp

def callFor (address : InetAddress) : Call :=
  ⟨exampleZone, nameOf ["edge", "ds", "cdn", "com"], [⟨some address, 30, none⟩], false⟩

-- 9 * 2 + 10 = 9 * 1 + 19: the last two bytes of the address enter the hash alike.
theorem fillDynamicZone_collision :
    ∃ zone, (fillDynamicZone unsignedEnvironment
        (run [.fill unsignedEnvironment (callFor (.ipv4 192 0 2 10))]) (callFor (.ipv4 192 0 1 19))).2 = some zone ∧
      ¬Answers unsignedEnvironment (callFor (.ipv4 192 0 1 19)) zone := by
  refine ⟨_, rfl, fun answers => ?_⟩
  obtain ⟨created, read, same, _⟩ := answers
  obtain rfl := Option.some.inj read
  have wanted := (same (Record.identity ⟨nameOf ["edge", "ds", "cdn", "com"], A, IN, 30, [.octets [192, 0, 1, 19]]⟩)).mpr
    (by decide +kernel)
  revert wanted
  decide +kernel

end Collision

end TrafficControl.TrafficRouter.Dns
