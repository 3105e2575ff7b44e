import TrafficControl.TrafficRouter.Dns.SignatureManager

set_option autoImplicit false

namespace TrafficControl.TrafficRouter.Dns.SignatureManager

open SignedBytes

variable (this : SignatureManager)

def zoneKeys (name : Name) : List DnsSecKeyPair := (this.keyMap.lookup name.toLowerCaseString).getD []

def isPublished (name : Name) (wantKsk : Bool) (maxTTL now : Int) (kpw : DnsSecKeyPair) : Bool :=
  kpw.dnskeyRecord.name.equals name && kpw.isKeySigningKey == wantKsk &&
    (this.expiredKeyAllowed || kpw.isKeyCached maxTTL now)

def isCandidate (name : Name) (wantKsk : Bool) (now : Int) (kpw : DnsSecKeyPair) : Bool :=
  kpw.dnskeyRecord.name.equals name && kpw.isKeySigningKey == wantKsk && kpw.isUsable now &&
    (this.expiredKeyAllowed || !kpw.isExpired now)

def published (name : Name) (wantKsk : Bool) (maxTTL now : Int) : List DnsSecKeyPair :=
  (this.zoneKeys name).filter (this.isPublished name wantKsk maxTTL now)

-- The keys that a zone may be signed with.
def candidates (name : Name) (wantKsk : Bool) (now : Int) : List DnsSecKeyPair :=
  (this.zoneKeys name).filter (this.isCandidate name wantKsk now)

def signingKey (now : Int) (keyPairs : List DnsSecKeyPair) : Option DnsSecKeyPair :=
  keyPairs.foldl (signingKeyOf now) none

-- The key with the earlier effective date, and the first one of two with the same date.
def earlier (kpw other : DnsSecKeyPair) : DnsSecKeyPair := if other.isOlder kpw then other else kpw

def earliest : List DnsSecKeyPair → Option DnsSecKeyPair
  | [] => none
  | first :: keyPairs => some (keyPairs.foldl earlier first)

theorem foldl_earlier_least (keyPairs : List DnsSecKeyPair) (first : DnsSecKeyPair) :
    ∀ kpw ∈ first :: keyPairs, (keyPairs.foldl earlier first).effective ≤ kpw.effective := by
  induction keyPairs generalizing first with
  | nil => simp
  | cons next keyPairs ih =>
    have chosen := ih (earlier first next)
    have both : (earlier first next).effective ≤ first.effective ∧ (earlier first next).effective ≤ next.effective := by
      unfold earlier DnsSecKeyPair.isOlder
      split_ifs with older <;> simp only [decide_eq_true_eq] at older <;> omega
    have least := chosen _ List.mem_cons_self
    simp only [List.mem_cons, forall_eq_or_imp, List.foldl_cons] at chosen ⊢
    exact ⟨by omega, by omega, chosen.2⟩

/-- No key precedes the earliest one. -/
theorem earliest_least {keyPairs : List DnsSecKeyPair} {kpw : DnsSecKeyPair} (chosen : earliest keyPairs = some kpw) :
    ∀ other ∈ keyPairs, kpw.effective ≤ other.effective := by
  cases keyPairs with
  | nil => cases chosen
  | cons first keyPairs =>
    cases chosen
    exact foldl_earlier_least keyPairs first

section Selection

variable {this} {name : Name} {wantKsk : Bool} {maxTTL now : Int}

theorem considerKey_publish (found : List DnsSecKeyPair × Option DnsSecKeyPair) (kpw : DnsSecKeyPair) :
    this.considerKey name wantKsk false maxTTL now found kpw =
      if this.isPublished name wantKsk maxTTL now kpw then (found.1 ++ [kpw], found.2) else found := by
  unfold considerKey isPublished
  cases kpw.dnskeyRecord.name.equals name
  · simp
  · cases kpw.isKeySigningKey <;> cases wantKsk <;> simp

theorem considerKey_sign (found : List DnsSecKeyPair × Option DnsSecKeyPair) (kpw : DnsSecKeyPair) :
    this.considerKey name wantKsk true maxTTL now found kpw =
      if this.isCandidate name wantKsk now kpw then (found.1, signingKeyOf now found.2 kpw) else found := by
  unfold considerKey isCandidate
  cases kpw.dnskeyRecord.name.equals name
  · simp
  · cases kpw.isUsable now <;> cases this.expiredKeyAllowed <;> cases kpw.isExpired now <;>
      cases kpw.isKeySigningKey <;> cases wantKsk <;> simp

theorem foldl_considerKey_publish (keyPairs : List DnsSecKeyPair) (found : List DnsSecKeyPair × Option DnsSecKeyPair) :
    keyPairs.foldl (this.considerKey name wantKsk false maxTTL now) found =
      (found.1 ++ keyPairs.filter (this.isPublished name wantKsk maxTTL now), found.2) := by
  induction keyPairs generalizing found with
  | nil => simp
  | cons kpw keyPairs ih =>
    rw [List.foldl_cons, ih, considerKey_publish, List.filter_cons]
    split_ifs <;> simp

theorem foldl_considerKey_sign (keyPairs : List DnsSecKeyPair) (found : List DnsSecKeyPair × Option DnsSecKeyPair) :
    keyPairs.foldl (this.considerKey name wantKsk true maxTTL now) found =
      (found.1, (keyPairs.filter (this.isCandidate name wantKsk now)).foldl (signingKeyOf now) found.2) := by
  induction keyPairs generalizing found with
  | nil => rfl
  | cons kpw keyPairs ih =>
    rw [List.foldl_cons, ih, considerKey_sign, List.filter_cons]
    split_ifs <;> simp

theorem getKeyPairs_publish : this.getKeyPairs name wantKsk false maxTTL now =
    (this.keyMap.lookup name.toLowerCaseString).map fun _ => this.published name wantKsk maxTTL now := by
  unfold getKeyPairs published zoneKeys
  cases this.keyMap.lookup name.toLowerCaseString with
  | none => rfl
  | some keyPairs => simp [foldl_considerKey_publish]

theorem getKeyPairs_sign : this.getKeyPairs name wantKsk true maxTTL now =
    (this.keyMap.lookup name.toLowerCaseString).map fun _ =>
      (signingKey now (this.candidates name wantKsk now)).toList := by
  unfold getKeyPairs candidates signingKey zoneKeys
  cases this.keyMap.lookup name.toLowerCaseString with
  | none => rfl
  | some keyPairs =>
    simp only [Option.map_some, Option.getD_some, foldl_considerKey_sign]
    cases (keyPairs.filter (this.isCandidate name wantKsk now)).foldl (signingKeyOf now) none <;> rfl

-- Each key replaces the one chosen so far or leaves it.
theorem signingKeyOf_cases (chosen : Option DnsSecKeyPair) (kpw : DnsSecKeyPair) :
    signingKeyOf now chosen kpw = some kpw ∨ chosen.isSome ∧ signingKeyOf now chosen kpw = chosen := by
  cases chosen with
  | none => exact Or.inl rfl
  | some chosen =>
    simp only [signingKeyOf]
    split_ifs <;> simp

variable (now) in
theorem foldl_signingKeyOf (keyPairs : List DnsSecKeyPair) (chosen : Option DnsSecKeyPair) :
    keyPairs.foldl (signingKeyOf now) chosen = chosen ∧ (keyPairs = [] ∨ chosen.isSome) ∨
      ∃ kpw ∈ keyPairs, keyPairs.foldl (signingKeyOf now) chosen = some kpw := by
  induction keyPairs generalizing chosen with
  | nil => simp
  | cons kpw keyPairs ih =>
    rw [List.foldl_cons]
    rcases ih (signingKeyOf now chosen kpw) with ⟨kept, _⟩ | ⟨later, member, selected⟩
    · rcases signingKeyOf_cases chosen kpw with replaced | ⟨present, same⟩
      · exact Or.inr ⟨kpw, List.mem_cons_self, kept.trans replaced⟩
      · exact Or.inl ⟨kept.trans same, Or.inr present⟩
    · exact Or.inr ⟨later, List.mem_cons_of_mem _ member, selected⟩

theorem signingKey_mem {keyPairs : List DnsSecKeyPair} {kpw : DnsSecKeyPair}
    (selected : signingKey now keyPairs = some kpw) : kpw ∈ keyPairs := by
  rcases foldl_signingKeyOf now keyPairs none with ⟨unchanged, _⟩ | ⟨other, member, same⟩
  · simp [signingKey, unchanged] at selected
  · simp only [signingKey, same, Option.some.injEq] at selected
    exact selected ▸ member

variable (now) in
theorem signingKey_eq_none {keyPairs : List DnsSecKeyPair} : signingKey now keyPairs = none ↔ keyPairs = [] := by
  constructor
  · intro missing
    rcases foldl_signingKeyOf now keyPairs none with ⟨_, empty | present⟩ | ⟨other, _, same⟩
    · exact empty
    · cases present
    · cases missing.symm.trans same
  · rintro rfl
    rfl

theorem foldl_unexpired {keyPairs : List DnsSecKeyPair} (valid : ∀ kpw ∈ keyPairs, kpw.isExpired now = false)
    (first : DnsSecKeyPair) (firstValid : first.isExpired now = false) :
    keyPairs.foldl (signingKeyOf now) (some first) = some (keyPairs.foldl earlier first) := by
  induction keyPairs generalizing first with
  | nil => rfl
  | cons kpw keyPairs ih =>
    have kpwValid := valid kpw List.mem_cons_self
    have step : signingKeyOf now (some first) kpw = some (earlier first kpw) := by
      simp only [signingKeyOf, earlier, firstValid, kpwValid]
      cases kpw.isOlder first <;> rfl
    have chosenValid : (earlier first kpw).isExpired now = false := by
      unfold earlier
      split_ifs
      · exact kpwValid
      · exact firstValid
    rw [List.foldl_cons, List.foldl_cons, step]
    exact ih (fun other member => valid other (List.mem_cons_of_mem _ member)) _ chosenValid

/-- Among keys that have not expired, the one with the earliest effective date is taken. -/
theorem signingKey_unexpired {keyPairs : List DnsSecKeyPair} (valid : ∀ kpw ∈ keyPairs, kpw.isExpired now = false) :
    signingKey now keyPairs = earliest keyPairs := by
  cases keyPairs with
  | nil => rfl
  | cons first keyPairs =>
    exact foldl_unexpired (fun kpw member => valid kpw (List.mem_cons_of_mem _ member)) first
      (valid first List.mem_cons_self)

end Selection

section Zones

variable {this} {name : Name} {maxTTL now : Int}

theorem candidates_valid (enforced : this.expiredKeyAllowed = false) {wantKsk : Bool} {kpw : DnsSecKeyPair}
    (candidate : kpw ∈ this.candidates name wantKsk now) : kpw.isExpired now = false := by
  have selected := (List.mem_filter.mp candidate).2
  simp only [isCandidate, enforced, Bool.false_or, Bool.and_eq_true, Bool.not_eq_true'] at selected
  exact selected.2

variable (this) in
def PublishesKeys (name : Name) (maxTTL now : Int) : Prop :=
  this.dnssecEnabled ∧ name.subdomain this.topLevelDomain ∧ this.published name true maxTTL now ≠ [] ∧
    this.published name false maxTTL now ≠ []

theorem publishedPairs_of_publishes (publishes : this.PublishesKeys name maxTTL now) :
    this.publishedPairs name maxTTL now =
      (this.published name true maxTTL now, this.published name false maxTTL now) := by
  obtain ⟨enabled, below, ksks, zsks⟩ := publishes
  unfold publishedPairs getKSKPairs getZSKPairs
  simp only [getKeyPairs_publish, enabled, below, Bool.and_self, if_true]
  cases absent : this.keyMap.lookup name.toLowerCaseString with
  | none => simp [published, zoneKeys, absent] at ksks
  | some keyPairs => simp [ksks, zsks]

theorem publishedPairs_of_not (silent : ¬this.PublishesKeys name maxTTL now) :
    this.publishedPairs name maxTTL now = ([], []) := by
  unfold publishedPairs getKSKPairs getZSKPairs
  simp only [getKeyPairs_publish]
  split_ifs with zone
  · rw [Bool.and_eq_true] at zone
    cases this.keyMap.lookup name.toLowerCaseString with
    | none => rfl
    | some keyPairs =>
      simp only [Option.map_some]
      split_ifs with both
      · simp only [Bool.and_eq_true, Bool.not_eq_true', List.isEmpty_eq_false_iff] at both
        exact absurd ⟨zone.1, zone.2, both.1, both.2⟩ silent
      · rfl
  · rfl

theorem generateDSRecords_ne_nil : this.generateDSRecords name maxTTL now ≠ [] ↔ this.PublishesKeys name maxTTL now := by
  unfold generateDSRecords
  by_cases publishes : this.PublishesKeys name maxTTL now
  · simp [publishedPairs_of_publishes publishes, publishes, publishes.2.2.1]
  · simp [publishedPairs_of_not publishes, publishes]

theorem signZone_snd (records : List Record) (timestamp : Int) :
    (this.signZone name records timestamp now).2 =
      (signingKey now (this.candidates name true now)).bind fun ksk =>
        (signingKey now (this.candidates name false now)).map fun zsk =>
          ⟨[ksk], [zsk], this.calculateSignatureExpiration timestamp records,
            some ksk.expiration, some zsk.expiration⟩ := by
  unfold signZone getZoneSigningKSKPair getZoneSigningZSKPair
  simp only [getKeyPairs_sign]
  cases absent : this.keyMap.lookup name.toLowerCaseString with
  | none => simp [candidates, zoneKeys, absent, signingKey]
  | some keyPairs =>
    simp only [Option.map_some]
    cases signingKey now (this.candidates name true now) <;>
      cases signingKey now (this.candidates name false now) <;> rfl

theorem signZone_isSome (records : List Record) (timestamp : Int) :
    (this.signZone name records timestamp now).2.isSome ↔
      this.candidates name true now ≠ [] ∧ this.candidates name false now ≠ [] := by
  rw [signZone_snd, ne_eq, ne_eq, ← signingKey_eq_none now, ← signingKey_eq_none now]
  cases signingKey now (this.candidates name true now) <;>
    cases signingKey now (this.candidates name false now) <;> simp

theorem generateZoneKey_signed (list : List Record) :
    (this.generateZoneKey name list false false).signed = this.signsZone name := by
  unfold generateZoneKey
  cases this.signsZone name <;> rfl

end Zones

/-- What a validating resolver relies on: a zone with DS records is signed, and the keys it is
signed with later were published before. -/
structure ChainOfTrust (name : Name) (maxTTL t0 t1 : Int) : Prop where
  signedKey : this.generateDSRecords name maxTTL t0 ≠ [] → ∀ list, (this.generateZoneKey name list false false).signed
  signs : this.generateDSRecords name maxTTL t0 ≠ [] →
    ∀ records timestamp, (this.signZone name records timestamp t0).2.isSome
  keysPublished : ∀ list, (this.generateZoneKey name list false false).signed → ∀ records timestamp,
    ∀ signing ∈ (this.signZone name records timestamp t1).2, ∀ key ∈ signing.kskPairs ++ signing.zskPairs,
      key.dnskeyRecord ∈ this.generateDNSKEYRecords name maxTTL t0
  delegated : ∀ list, (this.generateZoneKey name list false false).signed → ∀ records timestamp,
    ∀ signing ∈ (this.signZone name records timestamp t1).2, ∀ key ∈ signing.kskPairs,
      this.zoneSigner.calculateDSRecord key.dnskeyRecord this.dsTtl ∈ this.generateDSRecords name maxTTL t0

/-- The zone has a key with this DNSKEY record that has not been out of use for `maxTTL`. -/
def Cached (name : Name) (maxTTL now : Int) (kpw : DnsSecKeyPair) : Prop :=
  ∃ key ∈ this.zoneKeys name, key.dnskeyRecord = kpw.dnskeyRecord ∧ key.isKeyCached maxTTL now

/-- When the keys of a zone are published, the map has the name as it is spelled and a key of each
kind to sign with; and expired keys are allowed or the earliest keys of the later time are cached. -/
structure Trusted (name : Name) (maxTTL t0 t1 : Int) : Prop where
  signable : this.PublishesKeys name maxTTL t0 → (this.keyMap.lookup name.toString).isSome ∧
    this.candidates name true t0 ≠ [] ∧ this.candidates name false t0 ≠ []
  cached : this.signsZone name → this.expiredKeyAllowed = false →
    ∀ ksk ∈ earliest (this.candidates name true t1),
    ∀ zsk ∈ earliest (this.candidates name false t1),
      this.Cached name maxTTL t0 ksk ∧ this.Cached name maxTTL t0 zsk

section Trust

variable {this} {name : Name} {maxTTL t0 t1 : Int}

theorem signsZone_of_publishes (publishes : this.PublishesKeys name maxTTL t0) :
    this.signsZone name = (this.keyMap.lookup name.toString).isSome := by
  simp [signsZone, isDnssecEnabled, publishes.1, publishes.2.1]

theorem mem_candidates {wantKsk : Bool} {now : Int} {kpw : DnsSecKeyPair} :
    kpw ∈ this.candidates name wantKsk now ↔ kpw ∈ this.zoneKeys name ∧ kpw.dnskeyRecord.name.equals name ∧
      kpw.isKeySigningKey = wantKsk ∧ kpw.isUsable now ∧ (this.expiredKeyAllowed ∨ kpw.isExpired now = false) := by
  simp [candidates, isCandidate, and_assoc]

theorem mem_published {wantKsk : Bool} {now : Int} {kpw : DnsSecKeyPair} :
    kpw ∈ this.published name wantKsk maxTTL now ↔ kpw ∈ this.zoneKeys name ∧ kpw.dnskeyRecord.name.equals name ∧
      kpw.isKeySigningKey = wantKsk ∧ (this.expiredKeyAllowed ∨ kpw.isKeyCached maxTTL now) := by
  simp [published, isPublished, and_assoc]

-- A signing key's record is published when expired keys are, or when it is cached.
theorem published_of_candidate {wantKsk : Bool} {kpw : DnsSecKeyPair} (candidate : kpw ∈ this.candidates name wantKsk t1)
    (kept : this.expiredKeyAllowed ∨ this.Cached name maxTTL t0 kpw) :
    ∃ key ∈ this.published name wantKsk maxTTL t0, key.dnskeyRecord = kpw.dnskeyRecord := by
  obtain ⟨member, ofZone, kind, _⟩ := mem_candidates.mp candidate
  rcases kept with allowed | ⟨key, inZone, same, cached⟩
  · exact ⟨kpw, mem_published.mpr ⟨member, ofZone, kind, Or.inl allowed⟩, rfl⟩
  · refine ⟨key, mem_published.mpr ⟨inZone, same ▸ ofZone, ?_, Or.inr cached⟩, same⟩
    simpa only [DnsSecKeyPair.isKeySigningKey, same] using kind

theorem signing_keys {records : List Record} {timestamp : Int} {signing : Signing}
    (signed : signing ∈ (this.signZone name records timestamp t1).2) :
    ∃ ksk zsk, signingKey t1 (this.candidates name true t1) = some ksk ∧
      signingKey t1 (this.candidates name false t1) = some zsk ∧ signing.kskPairs = [ksk] ∧ signing.zskPairs = [zsk] := by
  rw [signZone_snd] at signed
  obtain ⟨ksk, kskSelected, rest⟩ := Option.bind_eq_some_iff.mp signed
  obtain ⟨zsk, zskSelected, rfl⟩ := Option.map_eq_some_iff.mp rest
  exact ⟨ksk, zsk, kskSelected, zskSelected, rfl, rfl⟩

theorem signingKey_earliest (enforced : this.expiredKeyAllowed = false) (wantKsk : Bool) :
    signingKey t1 (this.candidates name wantKsk t1) =
      earliest (this.candidates name wantKsk t1) :=
  signingKey_unexpired fun _ => candidates_valid enforced

theorem Trusted.published (trusted : this.Trusted name maxTTL t0 t1) (signsZone : this.signsZone name)
    {ksk zsk : DnsSecKeyPair} (kskSelected : signingKey t1 (this.candidates name true t1) = some ksk)
    (zskSelected : signingKey t1 (this.candidates name false t1) = some zsk) :
    this.PublishesKeys name maxTTL t0 ∧
      (∃ key ∈ this.published name true maxTTL t0, key.dnskeyRecord = ksk.dnskeyRecord) ∧
      ∃ key ∈ this.published name false maxTTL t0, key.dnskeyRecord = zsk.dnskeyRecord := by
  have kept : (this.expiredKeyAllowed ∨ this.Cached name maxTTL t0 ksk) ∧
      (this.expiredKeyAllowed ∨ this.Cached name maxTTL t0 zsk) := by
    cases policy : this.expiredKeyAllowed with
    | true => simp
    | false =>
      rw [signingKey_earliest policy] at kskSelected zskSelected
      have cached := trusted.cached signsZone policy ksk kskSelected zsk zskSelected
      exact ⟨Or.inr cached.1, Or.inr cached.2⟩
  obtain ⟨ksk', inKsks, kskSame⟩ := published_of_candidate (signingKey_mem kskSelected) kept.1
  obtain ⟨zsk', inZsks, zskSame⟩ := published_of_candidate (signingKey_mem zskSelected) kept.2
  simp only [SignatureManager.signsZone, isDnssecEnabled, Bool.and_eq_true] at signsZone
  have publishes : this.PublishesKeys name maxTTL t0 :=
    ⟨signsZone.1.1, signsZone.2, List.ne_nil_of_mem inKsks, List.ne_nil_of_mem inZsks⟩
  exact ⟨publishes, ⟨ksk', inKsks, kskSame⟩, zsk', inZsks, zskSame⟩

theorem Trusted.chainOfTrust (trusted : this.Trusted name maxTTL t0 t1) : this.ChainOfTrust name maxTTL t0 t1 := by
  constructor
  · intro delegation list
    have publishes := generateDSRecords_ne_nil.mp delegation
    rw [generateZoneKey_signed, signsZone_of_publishes publishes]
    exact (trusted.signable publishes).1
  · intro delegation records timestamp
    have publishes := generateDSRecords_ne_nil.mp delegation
    exact (signZone_isSome records timestamp).mpr (trusted.signable publishes).2
  · intro list signed records timestamp signing signedWith key used
    rw [generateZoneKey_signed] at signed
    obtain ⟨ksk, zsk, kskSelected, zskSelected, kskPairs, zskPairs⟩ := signing_keys signedWith
    obtain ⟨publishes, ⟨ksk', inKsks, kskSame⟩, zsk', inZsks, zskSame⟩ := trusted.published signed kskSelected zskSelected
    rw [generateDNSKEYRecords, publishedPairs_of_publishes publishes]
    rw [kskPairs, zskPairs] at used
    rcases List.mem_append.mp used with isKsk | isZsk
    · obtain rfl := List.mem_singleton.mp isKsk
      exact List.mem_append_left _ (List.mem_map.mpr ⟨ksk', inKsks, kskSame⟩)
    · obtain rfl := List.mem_singleton.mp isZsk
      exact List.mem_append_right _ (List.mem_map.mpr ⟨zsk', inZsks, zskSame⟩)
  · intro list signed records timestamp signing signedWith key used
    rw [generateZoneKey_signed] at signed
    obtain ⟨ksk, zsk, kskSelected, zskSelected, kskPairs, _⟩ := signing_keys signedWith
    obtain ⟨publishes, ⟨ksk', inKsks, kskSame⟩, _⟩ := trusted.published signed kskSelected zskSelected
    obtain rfl := List.mem_singleton.mp (kskPairs ▸ used)
    rw [generateDSRecords, publishedPairs_of_publishes publishes]
    exact List.mem_map.mpr ⟨ksk', inKsks, by rw [kskSame]⟩

theorem cached_of_published (enforced : this.expiredKeyAllowed = false) {kpw : DnsSecKeyPair}
    (listed : kpw.dnskeyRecord ∈ this.generateDNSKEYRecords name maxTTL t0) : this.Cached name maxTTL t0 kpw := by
  have fromKey (wantKsk : Bool)
      (member : kpw.dnskeyRecord ∈ (this.published name wantKsk maxTTL t0).map DnsSecKeyPair.dnskeyRecord) :
      this.Cached name maxTTL t0 kpw := by
    obtain ⟨key, inPublished, same⟩ := List.mem_map.mp member
    obtain ⟨inZone, _, _, kept⟩ := mem_published.mp inPublished
    simp only [enforced, Bool.false_eq_true, false_or] at kept
    exact ⟨key, inZone, same, kept⟩
  rw [generateDNSKEYRecords] at listed
  by_cases publishes : this.PublishesKeys name maxTTL t0
  · rw [publishedPairs_of_publishes publishes] at listed
    rcases List.mem_append.mp listed with inKsks | inZsks
    · exact fromKey true inKsks
    · exact fromKey false inZsks
  · simp [publishedPairs_of_not publishes] at listed

theorem ChainOfTrust.trusted (chain : this.ChainOfTrust name maxTTL t0 t1) : this.Trusted name maxTTL t0 t1 := by
  constructor
  · intro publishes
    have delegation := generateDSRecords_ne_nil.mpr publishes
    have signed := chain.signedKey delegation []
    rw [generateZoneKey_signed, signsZone_of_publishes publishes] at signed
    exact ⟨signed, (signZone_isSome [] 0).mp (chain.signs delegation [] 0)⟩
  · intro signsZone enforced ksk kskSelected zsk zskSelected
    have signing : ∃ signing ∈ (this.signZone name [] 0 t1).2, signing.kskPairs = [ksk] ∧ signing.zskPairs = [zsk] := by
      rw [signZone_snd, signingKey_earliest enforced, signingKey_earliest enforced, Option.mem_def.mp kskSelected,
        Option.mem_def.mp zskSelected]
      exact ⟨_, rfl, rfl, rfl⟩
    obtain ⟨signing, signedWith, kskPairs, zskPairs⟩ := signing
    have listed := chain.keysPublished [] (by rw [generateZoneKey_signed, signsZone]) [] 0 signing signedWith
    rw [kskPairs, zskPairs] at listed
    exact ⟨cached_of_published enforced (listed ksk (by simp)), cached_of_published enforced (listed zsk (by simp))⟩

/-- A key that has not expired later was cached before, unless it expires at that very moment. -/
theorem cached_before (later : t0 ≤ t1) (apart : 0 < maxTTL ∨ 0 ≤ maxTTL ∧ t0 < t1) {wantKsk : Bool}
    {kpw : DnsSecKeyPair} (candidate : kpw ∈ this.candidates name wantKsk t1)
    (valid : kpw.isExpired t1 = false) : this.Cached name maxTTL t0 kpw := by
  refine ⟨kpw, (mem_candidates.mp candidate).1, rfl, ?_⟩
  simp only [DnsSecKeyPair.isExpired, decide_eq_false_iff_not] at valid
  simp only [DnsSecKeyPair.isKeyCached, decide_eq_true_eq]
  omega

/-- The chain of trust holds for a zone just when what it publishes can be trusted. -/
theorem chainOfTrust_iff (name : Name) (maxTTL t0 t1 : Int) :
    this.ChainOfTrust name maxTTL t0 t1 ↔ this.Trusted name maxTTL t0 t1 :=
  ⟨ChainOfTrust.trusted, Trusted.chainOfTrust⟩

def ascii (label : String) : List Byte := label.toList.map fun c => BitVec.ofNat 8 c.toNat

def cdnName (ds : String) : Name := ⟨[ascii ds, ascii "cdn", ascii "example"]⟩

-- A zone with one KSK and one ZSK of the given effective date.
def cdnKey (flags : Byte) (effective : Int) : DnsSecKeyPair where
  name := "video.cdn.example."
  ttl := 60
  inception := 0
  effective := effective
  expiration := 90000000
  dnskeyRecord := ⟨cdnName "video", Record.DNSKEY, Record.IN, 60, [.octets [1, flags, 3, 8, 42]]⟩
  privateKey := [42]

def cdnManager (effective : Int) : SignatureManager where
  dnssecEnabled := true
  expiredKeyAllowed := true
  expirationMultiplier := 5
  dsTtl := 30
  keyMap := (∅ : KeyMap).insert "video.cdn.example." [cdnKey 1 effective, cdnKey 0 effective]
  topLevelDomain := ⟨[ascii "cdn", ascii "example"]⟩
  zoneSigner := ⟨fun _ records _ _ _ _ => records, fun dnskeyRecord _ => dnskeyRecord⟩

/-- A zone is delegated as signed and served unsigned, once for the spelling of its name and once
because its keys are not effective yet. -/
theorem delegated_unsigned :
    ((cdnManager 1000).generateDSRecords (cdnName "VIDEO") 86400 5000 ≠ [] ∧
      ((cdnManager 1000).generateZoneKey (cdnName "VIDEO") [] false false).signed = false ∧
      ¬(cdnManager 1000).ChainOfTrust (cdnName "VIDEO") 86400 5000 5000) ∧
    (cdnManager 9000).generateDSRecords (cdnName "video") 86400 5000 ≠ [] ∧
      ((cdnManager 9000).signZone (cdnName "video") [] 0 5000).2.isSome = false ∧
      ¬(cdnManager 9000).ChainOfTrust (cdnName "video") 86400 5000 5000 := by
  have misspelt : (cdnManager 1000).generateDSRecords (cdnName "VIDEO") 86400 5000 ≠ [] := by decide
  have early : (cdnManager 9000).generateDSRecords (cdnName "video") 86400 5000 ≠ [] := by decide
  refine ⟨⟨misspelt, by decide, fun chain => ?_⟩, early, by decide, fun chain => ?_⟩
  · exact absurd (chain.signedKey misspelt []) (by decide)
  · exact absurd (chain.signs early [] 0) (by decide)

end Trust

end TrafficControl.TrafficRouter.Dns.SignatureManager
