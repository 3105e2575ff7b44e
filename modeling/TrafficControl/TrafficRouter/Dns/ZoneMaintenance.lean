import TrafficControl.Lib.Runs
import TrafficControl.TrafficRouter.Dns.ChainOfTrust

set_option autoImplicit false

namespace TrafficControl.TrafficRouter.Dns

open MachineInt

inductive ZoneCacheType where
  | DYNAMIC
  | STATIC
deriving DecidableEq

-- The dates are null until a zone was signed under the key. A key with `signed = false` is a plain
-- ZoneKey and has none.
structure SignedZoneKey extends ZoneKey where
  timestamp : Int
  signatureExpiration : Option Int
  kskExpiration : Option Int
  zskExpiration : Option Int
deriving DecidableEq

-- A zone in a cache, with the signing that its signatures come from.
structure CachedZone extends Zone where
  signing : Option Signing

-- What the log says about a key. It dereferences the expiration.
structure RefreshMessage where
  type : ZoneCacheType
  name : Name
  timestamp : Int
  expires : Int
  needsRefresh : Bool
  message : Option String

-- A dereferenced null date is a NullPointerException, `none`.
namespace SignedZoneKey

variable (this : SignedZoneKey)

def getSignatureDuration : Option Int :=
  this.signatureExpiration.map fun signatureExpiration => wrap 64 (signatureExpiration - this.timestamp)

def getRefreshHorizon : Option Int :=
  this.getSignatureDuration.map fun duration => wrap 64 (this.timestamp + roundHalf duration)

def getEarliestSigningKeyExpiration : Option Int := do
  let kskExpiration ← this.kskExpiration
  let zskExpiration ← this.zskExpiration
  return if kskExpiration < zskExpiration then kskExpiration else zskExpiration

def getRefreshMessage (type : ZoneCacheType) (needsRefresh : Bool) (message : Option String) :
    Option RefreshMessage :=
  this.signatureExpiration.map fun expires => ⟨type, this.name, this.timestamp, expires, needsRefresh, message⟩

end SignedZoneKey

def SignatureManager.needsRefresh (this : SignatureManager) (type : ZoneCacheType) (zoneKey : SignedZoneKey)
    (refreshInterval now : Int) : Option Bool :=
  if zoneKey.signed then do
    let nextRefresh := wrap 64 (now + wrap 32 (refreshInterval * 1000))
    let refreshHorizon ← zoneKey.getRefreshHorizon
    if refreshHorizon ≤ nextRefresh then
      let _ ← zoneKey.getRefreshMessage type true (some "refresh horizon approaching")
      return true
    else
      let expired ←
        if this.expiredKeyAllowed then pure false
        else zoneKey.getEarliestSigningKeyExpiration.map fun earliest => decide (earliest ≤ now)
      if expired then
        let _ ← zoneKey.getRefreshMessage type true (some "signing key expiration")
        return true
      else
        let _ ← zoneKey.getRefreshMessage type false none
        return false
  else some false

namespace ZoneMaintenance

-- One call of `loadZone`: its clock, what the signer leaves in the key's list and what it returns
-- (`none` for an exception), and whether `new Zone` and `writeZone` go through.
structure Load where
  now : Int
  left : List Record
  signedRecords : Option (List Record)
  stored : Bool

-- The key is an object of the cache, and keeps what was written to it when the load fails.
def loadZone (signatureManager : SignatureManager) (load : Load) (zoneKey : SignedZoneKey) :
    SignedZoneKey × Option CachedZone :=
  let zoneKey := { zoneKey with timestamp := load.now }
  let zone (records : List Record) (signing : Option Signing) : Option CachedZone :=
    if load.stored then some ⟨⟨zoneKey.name, records⟩, signing⟩ else none
  if zoneKey.signed then
    match (signatureManager.signZone zoneKey.name zoneKey.records zoneKey.timestamp load.now).2 with
    | some signing =>
      let zoneKey := { zoneKey with records := load.left }
      match load.signedRecords with
      | some signedRecords =>
        ({ zoneKey with
            signatureExpiration := some signing.signatureExpiration
            kskExpiration := signing.kskExpiration
            zskExpiration := signing.zskExpiration }, zone signedRecords (some signing))
      | none => (zoneKey, none)
    | none => (zoneKey, zone zoneKey.records none)
  else (zoneKey, zone zoneKey.records none)

abbrev ZoneCache := List (SignedZoneKey × CachedZone)

def newKey (now : Int) (zoneKey : ZoneKey) : SignedZoneKey := ⟨zoneKey, now, none, none, none⟩

-- `LoadingCache.get`.
def get (signatureManager : SignatureManager) (load : Load) (cache : ZoneCache) (zoneKey : ZoneKey) : ZoneCache :=
  if cache.any fun entry => entry.1.equals zoneKey then cache
  else
    match loadZone signatureManager load (newKey load.now zoneKey) with
    | (zoneKey, some zone) => cache ++ [(zoneKey, zone)]
    | (_, none) => cache

-- `LoadingCache.refresh`: a failed load keeps the old zone.
def refresh (signatureManager : SignatureManager) (load : Load) (entry : SignedZoneKey × CachedZone) :
    SignedZoneKey × CachedZone :=
  match loadZone signatureManager load entry.1 with
  | (zoneKey, some zone) => (zoneKey, zone)
  | (zoneKey, none) => (zoneKey, entry.2)

-- The maintenance task. An exception from `needsRefresh` is logged and the key left alone.
def maintain (signatureManager : SignatureManager) (type : ZoneCacheType) (refreshInterval now : Int)
    (loads : SignedZoneKey → Load) (cache : ZoneCache) : ZoneCache :=
  cache.map fun entry =>
    match signatureManager.needsRefresh type entry.1 refreshInterval now with
    | some true => refresh signatureManager (loads entry.1) entry
    | _ => entry

inductive Event where
  | get (signatureManager : SignatureManager) (load : Load) (zoneKey : ZoneKey)
  | maintain (signatureManager : SignatureManager) (type : ZoneCacheType) (refreshInterval now : Int)
      (loads : SignedZoneKey → Load)
  | evict (zoneKey : ZoneKey)

def step (cache : ZoneCache) : Event → Option ZoneCache
  | .get signatureManager load zoneKey => some (get signatureManager load cache zoneKey)
  | .maintain signatureManager type refreshInterval now loads =>
    some (maintain signatureManager type refreshInterval now loads cache)
  | .evict zoneKey => some (cache.filter fun entry => !entry.1.equals zoneKey)

/-- `needsRefresh` answers, and only passes over a zone whose signatures outlast the interval and,
if expired keys are not allowed, whose signing keys have not expired. -/
structure Noticed (signatureManager : SignatureManager) (type : ZoneCacheType) (refreshInterval now : Int)
    (entry : SignedZoneKey × CachedZone) : Prop where
  answers : (signatureManager.needsRefresh type entry.1 refreshInterval now).isSome
  signatures : signatureManager.needsRefresh type entry.1 refreshInterval now = some false →
    ∀ signing ∈ entry.2.signing, now + refreshInterval * 1000 < signing.signatureExpiration
  signingKeys : signatureManager.needsRefresh type entry.1 refreshInterval now = some false →
    signatureManager.expiredKeyAllowed = false →
      ∀ signing ∈ entry.2.signing, ∀ keyPair ∈ signing.kskPairs ++ signing.zskPairs, keyPair.isExpired now = false

/-- Nothing overflows, and the clock is not behind the key's timestamp. -/
structure InRange (refreshInterval now : Int) (zoneKey : SignedZoneKey) : Prop where
  interval : 0 ≤ refreshInterval ∧ refreshInterval * 1000 < 2 ^ 31
  clock : zoneKey.timestamp ≤ now
  nextRefresh : Fits 64 (now + refreshInterval * 1000)
  dates : ∀ signatureExpiration ∈ zoneKey.signatureExpiration,
    Fits 64 (signatureExpiration - zoneKey.timestamp) ∧
      Fits 64 (zoneKey.timestamp + roundHalf (signatureExpiration - zoneKey.timestamp))

/-- A zone that enters a cache under a SignedZoneKey is signed, a zone that is signed again is
stored, and a maintenance run stays in range. -/
def Sound (cache : ZoneCache) : Event → Prop
  | .get signatureManager load zoneKey =>
    (∀ entry ∈ cache, entry.1.equals zoneKey = false) → zoneKey.signed → load.stored →
      (signatureManager.signZone zoneKey.name zoneKey.records load.now load.now).2.isSome
  | .maintain signatureManager _ refreshInterval now loads => ∀ entry ∈ cache, entry.1.signed →
      InRange refreshInterval now entry.1 ∧
        ((signatureManager.signZone entry.1.name entry.1.records (loads entry.1).now (loads entry.1).now).2.isSome →
          (loads entry.1).signedRecords.isSome → (loads entry.1).stored)
  | .evict _ => True

/-- The dates of the key are those of the zone's signing, if it has one. -/
structure Tracked (entry : SignedZoneKey × CachedZone) : Prop where
  dated : entry.1.signed → entry.1.signatureExpiration.isSome ∧ entry.1.kskExpiration.isSome ∧ entry.1.zskExpiration.isSome
  signing : ∀ signing ∈ entry.2.signing, entry.1.signed ∧
    entry.1.signatureExpiration = some signing.signatureExpiration ∧
    (∀ keyPair ∈ signing.kskPairs, entry.1.kskExpiration = some keyPair.expiration) ∧
    ∀ keyPair ∈ signing.zskPairs, entry.1.zskExpiration = some keyPair.expiration

section Loading

variable (signatureManager : SignatureManager) (load : Load) (zoneKey : SignedZoneKey)

/-- A load either signs the zone and dates the key accordingly, or leaves the key's dates alone and
brings no signatures. -/
theorem loadZone_cases {zoneKey' : SignedZoneKey} {zone : Option CachedZone}
    (loaded : loadZone signatureManager load zoneKey = (zoneKey', zone)) :
    (∃ signing ∈ (signatureManager.signZone zoneKey.name zoneKey.records load.now load.now).2,
      load.signedRecords.isSome ∧ zoneKey.signed ∧ zoneKey'.signed ∧
      zoneKey'.signatureExpiration = some signing.signatureExpiration ∧
      zoneKey'.kskExpiration = signing.kskExpiration ∧ zoneKey'.zskExpiration = signing.zskExpiration ∧
      (load.stored = false ∧ zone = none ∨ ∃ stored ∈ zone, stored.signing = some signing)) ∨
    (zoneKey'.signed = zoneKey.signed ∧ zoneKey'.signatureExpiration = zoneKey.signatureExpiration ∧
      zoneKey'.kskExpiration = zoneKey.kskExpiration ∧ zoneKey'.zskExpiration = zoneKey.zskExpiration ∧
      ∀ stored ∈ zone, stored.signing = none ∧ load.stored ∧
        (zoneKey.signed → (signatureManager.signZone zoneKey.name zoneKey.records load.now load.now).2 = none)) := by
  unfold loadZone at loaded
  dsimp only at loaded
  by_cases signed : zoneKey.signed
  · rw [if_pos signed] at loaded
    split at loaded
    next signing signs =>
      split at loaded
      next signedRecords =>
        obtain ⟨rfl, rfl⟩ := Prod.mk.inj loaded
        refine Or.inl ⟨signing, signs, by simp [*], signed, signed, rfl, rfl, rfl, ?_⟩
        cases stored : load.stored with
        | false => exact Or.inl ⟨rfl, by simp⟩
        | true => exact Or.inr ⟨_, rfl, rfl⟩
      next =>
        obtain ⟨rfl, rfl⟩ := Prod.mk.inj loaded
        exact Or.inr ⟨rfl, rfl, rfl, rfl, by simp⟩
    next unsigned =>
      obtain ⟨rfl, rfl⟩ := Prod.mk.inj loaded
      refine Or.inr ⟨rfl, rfl, rfl, rfl, fun stored built => ?_⟩
      obtain ⟨stores, ⟨⟩⟩ := Option.ite_none_right_eq_some.mp built
      exact ⟨rfl, stores, fun _ => unsigned⟩
  · rw [if_neg signed] at loaded
    obtain ⟨rfl, rfl⟩ := Prod.mk.inj loaded
    refine Or.inr ⟨rfl, rfl, rfl, rfl, fun stored built => ?_⟩
    obtain ⟨stores, ⟨⟩⟩ := Option.ite_none_right_eq_some.mp built
    exact ⟨rfl, stores, fun isSigned => absurd isSigned signed⟩

theorem signing_dates {name : Name} {records : List Record} {timestamp now : Int} {signing : Signing}
    (signs : signing ∈ (signatureManager.signZone name records timestamp now).2) :
    (signing.kskExpiration.isSome ∧ signing.zskExpiration.isSome) ∧
      (∀ keyPair ∈ signing.kskPairs, signing.kskExpiration = some keyPair.expiration) ∧
      ∀ keyPair ∈ signing.zskPairs, signing.zskExpiration = some keyPair.expiration := by
  rw [SignatureManager.signZone_snd] at signs
  obtain ⟨ksk, _, chosen⟩ := Option.bind_eq_some_iff.mp signs
  obtain ⟨zsk, _, rfl⟩ := Option.map_eq_some_iff.mp chosen
  simp

end Loading

variable {signatureManager : SignatureManager} {load : Load}

theorem Tracked.signed {zoneKey : SignedZoneKey} {zone : CachedZone} {name : Name} {records : List Record}
    {timestamp now : Int} {signing : Signing}
    (signs : signing ∈ (signatureManager.signZone name records timestamp now).2) (signed : zoneKey.signed)
    (signatureExpiration : zoneKey.signatureExpiration = some signing.signatureExpiration)
    (kskExpiration : zoneKey.kskExpiration = signing.kskExpiration)
    (zskExpiration : zoneKey.zskExpiration = signing.zskExpiration) (own : zone.signing = some signing) :
    Tracked (zoneKey, zone) := by
  obtain ⟨⟨kskDated, zskDated⟩, ksks, zsks⟩ := signing_dates signatureManager signs
  constructor
  · intro _
    rw [signatureExpiration, kskExpiration, zskExpiration]
    exact ⟨rfl, kskDated, zskDated⟩
  · intro other zoneSigning
    obtain rfl : signing = other := Option.some.inj (own.symm.trans zoneSigning)
    dsimp only
    rw [signatureExpiration, kskExpiration, zskExpiration]
    exact ⟨signed, rfl, ksks, zsks⟩

theorem get_tracked {cache : ZoneCache} {zoneKey : ZoneKey} (tracked : ∀ entry ∈ cache, Tracked entry)
    (sound : Sound cache (.get signatureManager load zoneKey)) :
    ∀ entry ∈ get signatureManager load cache zoneKey, Tracked entry := by
  unfold get
  split_ifs with cached
  · exact tracked
  simp only [List.any_eq_true, not_exists, not_and, Bool.not_eq_true] at cached
  split
  next zoneKey' zone loaded =>
    intro entry member
    rcases List.mem_append.mp member with old | new
    · exact tracked entry old
    obtain rfl := List.mem_singleton.mp new
    obtain ⟨signing, signs, _, _, signed, expiration, ksk, zsk, fate⟩ | ⟨signed, _, _, _, unsigned⟩ :=
      loadZone_cases signatureManager load (newKey load.now zoneKey) loaded
    · rcases fate with ⟨_, nothing⟩ | ⟨stored, same, own⟩
      · cases nothing
      · cases same
        exact Tracked.signed signs signed expiration ksk zsk own
    · obtain ⟨none, stores, fallsBack⟩ := unsigned zone rfl
      constructor
      · intro isSigned
        have signs := sound cached (signed ▸ isSigned) stores
        have falls := fallsBack (signed ▸ isSigned)
        change (signatureManager.signZone zoneKey.name zoneKey.records load.now load.now).2 = Option.none at falls
        simp [falls] at signs
      · intro signing own
        simp [none] at own
  next => exact tracked

theorem Tracked.redated {entry : SignedZoneKey × CachedZone} (tracked : Tracked entry) {zoneKey : SignedZoneKey}
    (signed : zoneKey.signed = entry.1.signed)
    (signatureExpiration : zoneKey.signatureExpiration = entry.1.signatureExpiration)
    (kskExpiration : zoneKey.kskExpiration = entry.1.kskExpiration)
    (zskExpiration : zoneKey.zskExpiration = entry.1.zskExpiration) {zone : CachedZone}
    (own : ∀ signing ∈ zone.signing, signing ∈ entry.2.signing) : Tracked (zoneKey, zone) := by
  constructor
  · dsimp only
    rw [signed, signatureExpiration, kskExpiration, zskExpiration]
    exact tracked.dated
  · dsimp only
    rw [signed, signatureExpiration, kskExpiration, zskExpiration]
    exact fun signing member => tracked.signing signing (own signing member)

theorem refresh_tracked {entry : SignedZoneKey × CachedZone} (tracked : Tracked entry)
    (stores : entry.1.signed →
      (signatureManager.signZone entry.1.name entry.1.records load.now load.now).2.isSome →
        load.signedRecords.isSome → load.stored) : Tracked (refresh signatureManager load entry) := by
  unfold refresh
  split
  next zoneKey zone loaded =>
    obtain ⟨signing, signs, _, _, signed, expiration, ksk, zsk, fate⟩ | ⟨signed, expiration, ksk, zsk, unsigned⟩ :=
      loadZone_cases signatureManager load entry.1 loaded
    · rcases fate with ⟨_, nothing⟩ | ⟨stored, same, own⟩
      · cases nothing
      · cases same
        exact Tracked.signed signs signed expiration ksk zsk own
    · have none := (unsigned zone rfl).1
      exact tracked.redated signed expiration ksk zsk (by simp [none])
  next zoneKey loaded =>
    obtain ⟨signing, signs, returned, wasSigned, _, _, _, _, fate⟩ | ⟨signed, expiration, ksk, zsk, _⟩ :=
      loadZone_cases signatureManager load entry.1 loaded
    · rcases fate with ⟨failed, _⟩ | ⟨stored, same, _⟩
      · have stored := stores wasSigned (by simp [Option.mem_def.mp signs]) returned
        simp [failed] at stored
      · cases same
    · exact tracked.redated signed expiration ksk zsk fun _ => id

theorem step_tracked (cache : ZoneCache) (event : Event) (next : ZoneCache)
    (tracked : ∀ entry ∈ cache, Tracked entry) (sound : Sound cache event) (stepped : step cache event = some next) :
    ∀ entry ∈ next, Tracked entry := by
  cases event with
  | get signatureManager load zoneKey =>
    cases stepped
    exact get_tracked tracked sound
  | maintain signatureManager type refreshInterval now loads =>
    cases stepped
    intro entry member
    obtain ⟨old, inCache, rfl⟩ := List.mem_map.mp member
    split
    · exact refresh_tracked (tracked old inCache) fun signed => (sound old inCache signed).2
    · exact tracked old inCache
  | evict zoneKey =>
    cases stepped
    exact fun entry member => tracked entry (List.mem_filter.mp member).1

section Noticing

variable {type : ZoneCacheType} {refreshInterval now : Int}

theorem needsRefresh_eq (signatureManager : SignatureManager) (type : ZoneCacheType) {zoneKey : SignedZoneKey}
    (range : InRange refreshInterval now zoneKey) (signed : zoneKey.signed) {signatureExpiration kskExpiration zskExpiration : Int}
    (expires : zoneKey.signatureExpiration = some signatureExpiration)
    (kskExpires : zoneKey.kskExpiration = some kskExpiration)
    (zskExpires : zoneKey.zskExpiration = some zskExpiration) :
    signatureManager.needsRefresh type zoneKey refreshInterval now =
      some (decide (zoneKey.timestamp + roundHalf (signatureExpiration - zoneKey.timestamp) ≤
          now + refreshInterval * 1000) ||
        !signatureManager.expiredKeyAllowed && decide (min kskExpiration zskExpiration ≤ now)) := by
  obtain ⟨duration, horizon⟩ := range.dates _ expires
  have interval : Fits 32 (refreshInterval * 1000) := by
    have := range.interval
    unfold Fits
    omega
  have earliest : (if kskExpiration < zskExpiration then kskExpiration else zskExpiration) =
      min kskExpiration zskExpiration := by omega
  unfold SignatureManager.needsRefresh SignedZoneKey.getRefreshHorizon SignedZoneKey.getSignatureDuration
    SignedZoneKey.getEarliestSigningKeyExpiration SignedZoneKey.getRefreshMessage
  simp only [signed, if_true, expires, kskExpires, zskExpires, Option.map_some, wrap_eq duration, wrap_eq horizon,
    wrap_eq interval, wrap_eq range.nextRefresh, Option.bind_eq_bind, Option.bind_some, Option.pure_def, earliest]
  by_cases near : zoneKey.timestamp + roundHalf (signatureExpiration - zoneKey.timestamp) ≤
      now + refreshInterval * 1000
  · simp [near]
  · cases allowed : signatureManager.expiredKeyAllowed with
    | true => simp [near]
    | false => by_cases expired : min kskExpiration zskExpiration ≤ now <;> simp [near, expired]

theorem noticed {entry : SignedZoneKey × CachedZone} (tracked : Tracked entry)
    (range : entry.1.signed → InRange refreshInterval now entry.1) :
    Noticed signatureManager type refreshInterval now entry := by
  cases signed : entry.1.signed with
  | false =>
    have unsigned : ∀ signing, signing ∉ entry.2.signing := by
      intro signing own
      have contrary := (tracked.signing signing own).1
      simp [signed] at contrary
    refine ⟨by simp [SignatureManager.needsRefresh, signed], ?_, ?_⟩
    · exact fun _ signing own => absurd own (unsigned signing)
    · exact fun _ _ signing own => absurd own (unsigned signing)
  | true =>
    have inRange := range signed
    obtain ⟨expires, kskExpires, zskExpires⟩ := tracked.dated signed
    obtain ⟨signatureExpiration, expires⟩ := Option.isSome_iff_exists.mp expires
    obtain ⟨kskExpiration, kskExpires⟩ := Option.isSome_iff_exists.mp kskExpires
    obtain ⟨zskExpiration, zskExpires⟩ := Option.isSome_iff_exists.mp zskExpires
    have answer := needsRefresh_eq signatureManager type inRange signed expires kskExpires zskExpires
    refine ⟨by simp [answer], ?_, ?_⟩
    · intro passes signing own
      obtain ⟨_, same, _, _⟩ := tracked.signing signing own
      obtain rfl : signatureExpiration = signing.signatureExpiration := by simpa [expires] using same
      simp only [answer, Option.some.injEq, Bool.or_eq_false_iff, decide_eq_false_iff_not] at passes
      have notBehind := inRange.clock
      have future := inRange.interval.1
      -- With a negative duration the horizon is no later than the timestamp.
      rcases Int.le_total 0 (signing.signatureExpiration - entry.1.timestamp) with lasting | expired
      · have half := roundHalf_nonneg lasting
        omega
      · have half := roundHalf_nonpos expired
        omega
    · intro passes enforced signing own
      obtain ⟨_, _, ksks, zsks⟩ := tracked.signing signing own
      simp only [answer, enforced, Bool.not_false, Bool.true_and, Option.some.injEq, Bool.or_eq_false_iff,
        decide_eq_false_iff_not] at passes
      intro keyPair used
      have later : keyPair.expiration = kskExpiration ∨ keyPair.expiration = zskExpiration := by
        rcases List.mem_append.mp used with ksk | zsk
        · exact Or.inl (Option.some.inj ((ksks keyPair ksk).symm.trans kskExpires))
        · exact Or.inr (Option.some.inj ((zsks keyPair zsk).symm.trans zskExpires))
      rw [DnsSecKeyPair.isExpired, decide_eq_false_iff_not]
      omega

end Noticing

/-- In a run in which every zone under a SignedZoneKey enters the cache signed, every zone signed
again is stored, and no maintenance run overflows, maintenance notices every signature in time. -/
theorem needsRefresh_notices {events : List Event} {cache : ZoneCache} {signatureManager : SignatureManager}
    {type : ZoneCacheType} {refreshInterval now : Int} {loads : SignedZoneKey → Load}
    (sound : Runs.Throughout step Sound [] (events ++ [.maintain signatureManager type refreshInterval now loads]))
    (ran : Runs.run step [] events = some cache) :
    ∀ entry ∈ cache, Noticed signatureManager type refreshInterval now entry := by
  obtain ⟨before, after⟩ := Runs.throughout_append.mp sound
  have tracked : ∀ entry ∈ cache, Tracked entry :=
    Runs.run_invariant step_tracked (by simp) before ran
  intro entry member
  exact noticed (tracked entry member) fun signed => ((after cache ran).1 entry member signed).1

section VideoZone

open SignatureManager

def videoSoa : Record := ⟨cdnName "video", Record.SOA, Record.IN, 86400, [.name (cdnName "video")]⟩

def videoKey : ZoneKey := (cdnManager 1000).generateZoneKey (cdnName "video") [videoSoa] false false

def videoLoad : Load := ⟨5000, [videoSoa], some [videoSoa], true⟩

-- The zone's keys become effective at the given time; it is loaded at 5000.
def videoEvents (effective : Int) : List Event := [.get (cdnManager effective) videoLoad videoKey]

theorem needsRefresh_notices_video :
    ∃ cache, Runs.run step [] (videoEvents 1000) = some cache ∧ cache.length = 1 ∧
      ∀ entry ∈ cache, Noticed (cdnManager 1000) .DYNAMIC 300 6000 entry := by
  have sound : Runs.Throughout step Sound []
      (videoEvents 1000 ++ [.maintain (cdnManager 1000) .DYNAMIC 300 6000 fun _ => videoLoad]) := by
    refine ⟨fun _ _ _ => by decide, fun cache stepped => ⟨?_, fun _ _ => trivial⟩⟩
    cases stepped
    intro entry member _
    obtain rfl := List.mem_singleton.mp member
    exact ⟨⟨by decide, by decide, by decide, by decide⟩, fun _ _ => rfl⟩
  exact ⟨_, rfl, by decide, needsRefresh_notices sound rfl⟩

/-- A zone that was loaded without usable keys makes `needsRefresh` throw; an interval of 2147484
seconds turns negative, and a zone whose signatures expire within it is passed over. -/
theorem needsRefresh_missed :
    (∃ cache, Runs.run step [] (videoEvents 9000) = some cache ∧
      ∃ entry ∈ cache, ¬Noticed (cdnManager 9000) .DYNAMIC 300 6000 entry) ∧
    ∃ cache, Runs.run step [] (videoEvents 1000) = some cache ∧
      ∃ entry ∈ cache, ¬Noticed (cdnManager 1000) .DYNAMIC 2147484 6000 entry := by
  refine ⟨⟨_, rfl, _, List.mem_singleton_self _, fun noticed => ?_⟩,
    ⟨_, rfl, _, List.mem_singleton_self _, fun noticed => ?_⟩⟩
  · exact absurd noticed.answers (by decide)
  · exact absurd (noticed.signatures (by decide) _ rfl) (by decide)

end VideoZone

end ZoneMaintenance

end TrafficControl.TrafficRouter.Dns
