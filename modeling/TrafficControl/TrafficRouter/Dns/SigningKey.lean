import Mathlib.Data.List.Induction
import TrafficControl.TrafficRouter.Dns.ChainOfTrust

set_option autoImplicit false

namespace TrafficControl.TrafficRouter.Dns.SignatureManager

section Pass

variable {now : Int} {keyPairs : List DnsSecKeyPair} {kpw : DnsSecKeyPair}

/-- The oldest of the keys that have not expired, or the newest when all have. -/
structure Best (now : Int) (keyPairs : List DnsSecKeyPair) (kpw : DnsSecKeyPair) : Prop where
  mem : kpw ∈ keyPairs
  oldest : kpw.isExpired now = false → ∀ other ∈ keyPairs, other.isExpired now = false → kpw.effective ≤ other.effective
  newest : kpw.isExpired now = true → ∀ other ∈ keyPairs, other.isExpired now = true ∧ other.effective ≤ kpw.effective

theorem Best.keeps (best : Best now keyPairs kpw) {next : DnsSecKeyPair}
    (valid : kpw.isExpired now = false → next.isExpired now = false → kpw.effective ≤ next.effective)
    (expired : kpw.isExpired now = true → next.isExpired now = true ∧ next.effective ≤ kpw.effective) :
    Best now (keyPairs ++ [next]) kpw := by
  refine ⟨List.mem_append_left _ best.mem, fun isValid other member otherValid => ?_, fun isExpired other member => ?_⟩
  · rcases List.mem_append.mp member with old | new
    · exact best.oldest isValid other old otherValid
    · obtain rfl := List.mem_singleton.mp new
      exact valid isValid otherValid
  · rcases List.mem_append.mp member with old | new
    · exact best.newest isExpired other old
    · obtain rfl := List.mem_singleton.mp new
      exact expired isExpired

theorem Best.replaces (best : Best now keyPairs kpw) {next : DnsSecKeyPair}
    (valid : next.isExpired now = false → kpw.isExpired now = false → next.effective ≤ kpw.effective)
    (expired : next.isExpired now = true → kpw.isExpired now = true ∧ kpw.effective ≤ next.effective) :
    Best now (keyPairs ++ [next]) next := by
  refine ⟨List.mem_append_right _ (List.mem_singleton_self _), fun isValid other member otherValid => ?_, fun isExpired other member => ?_⟩
  · rcases List.mem_append.mp member with old | new
    · cases kept : kpw.isExpired now with
      | false => exact (valid isValid kept).trans (best.oldest kept other old otherValid)
      | true =>
        rw [(best.newest kept other old).1] at otherValid
        cases otherValid
    · rw [List.mem_singleton.mp new]
  · obtain ⟨kept, order⟩ := expired isExpired
    rcases List.mem_append.mp member with old | new
    · exact ⟨(best.newest kept other old).1, (best.newest kept other old).2.trans order⟩
    · rw [List.mem_singleton.mp new]
      exact ⟨isExpired, le_rfl⟩

/-- One round keeps the best key of those that were seen. -/
theorem Best.step (best : Best now keyPairs kpw) (next : DnsSecKeyPair) :
    ∃ chosen, signingKeyOf now (some kpw) next = some chosen ∧ Best now (keyPairs ++ [next]) chosen := by
  unfold signingKeyOf
  dsimp only
  cases old : kpw.isExpired now <;> cases new : next.isExpired now
  · cases order : next.isOlder kpw with
    | true =>
      simp only [DnsSecKeyPair.isOlder, decide_eq_true_eq] at order
      exact ⟨next, rfl, best.replaces (fun _ _ => order.le) fun expired => by simp [new] at expired⟩
    | false =>
      simp only [DnsSecKeyPair.isOlder, decide_eq_false_iff_not, not_lt] at order
      exact ⟨kpw, rfl, best.keeps (fun _ _ => order) fun expired => by simp [old] at expired⟩
  · exact ⟨kpw, rfl, best.keeps (fun _ valid => by simp [new] at valid) fun expired => by simp [old] at expired⟩
  · exact ⟨next, rfl, best.replaces (fun _ valid => by simp [old] at valid) fun expired => by simp [new] at expired⟩
  · cases order : next.isNewer kpw with
    | true =>
      simp only [DnsSecKeyPair.isNewer, decide_eq_true_eq] at order
      exact ⟨next, rfl, best.replaces (fun valid => by simp [new] at valid) fun _ => ⟨old, order.le⟩⟩
    | false =>
      simp only [DnsSecKeyPair.isNewer, decide_eq_false_iff_not, not_lt] at order
      exact ⟨kpw, rfl, best.keeps (fun valid => by simp [old] at valid) fun _ => ⟨new, order⟩⟩

theorem signingKey_best (selected : signingKey now keyPairs = some kpw) : Best now keyPairs kpw := by
  induction keyPairs using List.reverseRecOn generalizing kpw with
  | nil => cases selected
  | append_singleton keyPairs next ih =>
    unfold signingKey at selected ih
    rw [List.foldl_append, List.foldl_cons, List.foldl_nil] at selected
    cases chosen : keyPairs.foldl (signingKeyOf now) none with
    | none =>
      rw [chosen] at selected
      cases selected
      have empty : keyPairs = [] := (signingKey_eq_none now).mp chosen
      rw [empty, List.nil_append]
      refine ⟨List.mem_singleton_self _, fun _ other member _ => ?_, fun expired other member => ?_⟩
      · rw [List.mem_singleton.mp member]
      · rw [List.mem_singleton.mp member]
        exact ⟨expired, le_rfl⟩
    | some before =>
      obtain ⟨after, stepped, best⟩ := (ih chosen).step next
      rw [chosen, stepped] at selected
      exact Option.some.inj selected ▸ best

end Pass

/-- A key of the kind for the name, effective before now. -/
structure Wanted (name : Name) (wantKsk : Bool) (now : Int) (kpw : DnsSecKeyPair) : Prop where
  named : kpw.dnskeyRecord.name.equals name = true
  kind : kpw.isKeySigningKey = wantKsk
  usable : kpw.isUsable now = true

/-- What is chosen of the key pairs: the oldest of the wanted keys that have not expired, else the newest
of those that have, when they may be used. -/
structure Chosen (expiredKeyAllowed : Bool) (name : Name) (wantKsk : Bool) (now : Int) (keyPairs keys : List DnsSecKeyPair) : Prop where
  one : keys.length ≤ 1
  wanted : ∀ kpw ∈ keys, kpw ∈ keyPairs ∧ Wanted name wantKsk now kpw
  valid : (∃ kpw ∈ keyPairs, Wanted name wantKsk now kpw ∧ kpw.isExpired now = false) → ∃ kpw, keys = [kpw] ∧ kpw.isExpired now = false ∧
    ∀ other ∈ keyPairs, Wanted name wantKsk now other → other.isExpired now = false → kpw.effective ≤ other.effective
  expired : (¬∃ kpw ∈ keyPairs, Wanted name wantKsk now kpw ∧ kpw.isExpired now = false) → expiredKeyAllowed = true →
    (∃ kpw ∈ keyPairs, Wanted name wantKsk now kpw) → ∃ kpw, keys = [kpw] ∧ kpw.isExpired now = true ∧
      ∀ other ∈ keyPairs, Wanted name wantKsk now other → other.effective ≤ kpw.effective
  absent : (¬∃ kpw ∈ keyPairs, Wanted name wantKsk now kpw ∧ kpw.isExpired now = false) →
    (expiredKeyAllowed = false ∨ ¬∃ kpw ∈ keyPairs, Wanted name wantKsk now kpw) → keys = []

section Choice

variable {expiredKeyAllowed wantKsk : Bool} {name : Name} {now : Int} {keyPairs keyPairs' keys keys' : List DnsSecKeyPair}

/-- The order of the key pairs does not matter, but for keys with equal effective dates. -/
theorem Chosen.perm (chosen : Chosen expiredKeyAllowed name wantKsk now keyPairs keys)
    (chosen' : Chosen expiredKeyAllowed name wantKsk now keyPairs' keys') (perm : keyPairs'.Perm keyPairs) :
    keys'.map (·.effective) = keys.map (·.effective) := by
  have same : ∀ kpw, kpw ∈ keyPairs' ↔ kpw ∈ keyPairs := fun kpw => perm.mem_iff
  have inKeys : ∀ {keyPairs keys : List DnsSecKeyPair} {kpw : DnsSecKeyPair}, Chosen expiredKeyAllowed name wantKsk now keyPairs keys →
      keys = [kpw] → kpw ∈ keyPairs ∧ Wanted name wantKsk now kpw := fun chosen list =>
    chosen.wanted _ (list ▸ List.mem_singleton_self _)
  by_cases some_valid : ∃ kpw ∈ keyPairs, Wanted name wantKsk now kpw ∧ kpw.isExpired now = false
  · obtain ⟨kpw, rfl, valid, oldest⟩ := chosen.valid some_valid
    obtain ⟨kpw', rfl, valid', oldest'⟩ := chosen'.valid (by simpa only [same] using some_valid)
    obtain ⟨member, wanted⟩ := inKeys chosen rfl
    obtain ⟨member', wanted'⟩ := inKeys chosen' rfl
    have le := oldest kpw' ((same kpw').mp member') wanted' valid'
    have ge := oldest' kpw ((same kpw).mpr member) wanted valid
    rw [List.map_singleton, List.map_singleton, le_antisymm ge le]
  · have none_valid' : ¬∃ kpw ∈ keyPairs', Wanted name wantKsk now kpw ∧ kpw.isExpired now = false := by
      simpa only [same] using some_valid
    by_cases some_expired : expiredKeyAllowed = true ∧ ∃ kpw ∈ keyPairs, Wanted name wantKsk now kpw
    · obtain ⟨kpw, rfl, _, newest⟩ := chosen.expired some_valid some_expired.1 some_expired.2
      obtain ⟨kpw', rfl, _, newest'⟩ := chosen'.expired none_valid' some_expired.1 (by simpa only [same] using some_expired.2)
      obtain ⟨member, wanted⟩ := inKeys chosen rfl
      obtain ⟨member', wanted'⟩ := inKeys chosen' rfl
      have ge := newest kpw' ((same kpw').mp member') wanted'
      have le := newest' kpw ((same kpw).mpr member) wanted
      rw [List.map_singleton, List.map_singleton, le_antisymm ge le]
    · have neither : expiredKeyAllowed = false ∨ ¬∃ kpw ∈ keyPairs, Wanted name wantKsk now kpw := by
        rw [← Bool.not_eq_true]
        exact not_and_or.mp some_expired
      have neither' : expiredKeyAllowed = false ∨ ¬∃ kpw ∈ keyPairs', Wanted name wantKsk now kpw := by
        simpa only [same] using neither
      rw [chosen.absent some_valid neither, chosen'.absent none_valid' neither']

variable {this : SignatureManager}

theorem mem_candidates_iff (given : this.keyMap.lookup name.toLowerCaseString = some keyPairs) (kpw : DnsSecKeyPair) :
    kpw ∈ this.candidates name wantKsk now ↔
      kpw ∈ keyPairs ∧ Wanted name wantKsk now kpw ∧ (this.expiredKeyAllowed = true ∨ kpw.isExpired now = false) := by
  rw [mem_candidates, zoneKeys, given, Option.getD_some]
  refine and_congr_right fun _ => ?_
  constructor
  · rintro ⟨named, kind, usable, policy⟩
    exact ⟨⟨named, kind, usable⟩, policy⟩
  · rintro ⟨⟨named, kind, usable⟩, policy⟩
    exact ⟨named, kind, usable, policy⟩

theorem getKeyPairs_chosen (given : this.keyMap.lookup name.toLowerCaseString = some keyPairs) (maxTTL : Int) :
    ∃ keys, this.getKeyPairs name wantKsk true maxTTL now = some keys ∧
      Chosen this.expiredKeyAllowed name wantKsk now keyPairs keys := by
  have candidate := @mem_candidates_iff wantKsk name now keyPairs this given
  refine ⟨(signingKey now (this.candidates name wantKsk now)).toList, by rw [getKeyPairs_sign, given]; rfl, ?_⟩
  cases selected : signingKey now (this.candidates name wantKsk now) with
  | none =>
    have empty := (signingKey_eq_none now).mp selected
    have nobody : ∀ kpw ∈ keyPairs, Wanted name wantKsk now kpw → this.expiredKeyAllowed = false ∧ kpw.isExpired now = true := by
      intro kpw member wanted
      have absent := mt (candidate kpw).mpr (by rw [empty]; exact List.not_mem_nil)
      simpa [member, wanted] using absent
    refine ⟨Nat.zero_le _, fun kpw none => absurd none List.not_mem_nil, ?_, ?_, fun _ _ => rfl⟩
    · rintro ⟨kpw, member, wanted, valid⟩
      rw [(nobody kpw member wanted).2] at valid
      cases valid
    · rintro _ allowed ⟨kpw, member, wanted⟩
      rw [(nobody kpw member wanted).1] at allowed
      cases allowed
  | some kpw =>
    have best := signingKey_best selected
    obtain ⟨member, wanted, policy⟩ := (candidate kpw).mp best.mem
    refine ⟨le_rfl, fun other inKeys => ?_, ?_, ?_, ?_⟩
    · rw [List.mem_singleton.mp inKeys]
      exact ⟨member, wanted⟩
    · rintro ⟨other, member', wanted', valid'⟩
      have valid : kpw.isExpired now = false := by
        by_contra expired
        have all := best.newest (Bool.eq_true_of_not_eq_false expired) other ((candidate other).mpr ⟨member', wanted', Or.inr valid'⟩)
        rw [valid'] at all
        cases all.1
      refine ⟨kpw, rfl, valid, fun third member'' wanted'' valid'' => ?_⟩
      exact best.oldest valid third ((candidate third).mpr ⟨member'', wanted'', Or.inr valid''⟩) valid''
    · intro none_valid allowed _
      have expired : kpw.isExpired now = true := by
        by_contra valid
        exact none_valid ⟨kpw, member, wanted, Bool.eq_false_of_not_eq_true valid⟩
      refine ⟨kpw, rfl, expired, fun third member'' wanted'' => ?_⟩
      exact (best.newest expired third ((candidate third).mpr ⟨member'', wanted'', Or.inl allowed⟩)).2
    · intro none_valid neither
      rcases neither with enforced | nobody
      · have valid := policy.resolve_left (by rw [enforced]; exact Bool.false_ne_true)
        exact absurd ⟨kpw, member, wanted, valid⟩ none_valid
      · exact absurd ⟨kpw, member, wanted⟩ nobody

end Choice

/-- One pass over the key pairs finds the key to sign with, in whatever order they come. -/
theorem getKeyPairs_signingKey (this : SignatureManager) (name : Name) (wantKsk : Bool) (maxTTL now : Int) (keyPairs : List DnsSecKeyPair)
    (given : this.keyMap.lookup name.toLowerCaseString = some keyPairs) :
    ∃ keys, this.getKeyPairs name wantKsk true maxTTL now = some keys ∧
      Chosen this.expiredKeyAllowed name wantKsk now keyPairs keys ∧
      ∀ that : SignatureManager, that.expiredKeyAllowed = this.expiredKeyAllowed → ∀ keyPairs' : List DnsSecKeyPair,
        that.keyMap.lookup name.toLowerCaseString = some keyPairs' → keyPairs'.Perm keyPairs →
        ∃ keys', that.getKeyPairs name wantKsk true maxTTL now = some keys' ∧ keys'.map (·.effective) = keys.map (·.effective) := by
  obtain ⟨keys, found, chosen⟩ := @getKeyPairs_chosen wantKsk name now keyPairs this given maxTTL
  refine ⟨keys, found, chosen, fun that policy keyPairs' given' perm => ?_⟩
  obtain ⟨keys', found', chosen'⟩ := @getKeyPairs_chosen wantKsk name now keyPairs' that given' maxTTL
  rw [policy] at chosen'
  exact ⟨keys', found', chosen.perm chosen' perm⟩

theorem getKeyPairs_signingKey_cdn : ∃ keys, (cdnManager 1000).getKeyPairs (cdnName "video") true true 86400 5000 = some keys ∧
    Chosen true (cdnName "video") true 5000 [cdnKey 1 1000, cdnKey 0 1000] keys ∧
    ∀ that : SignatureManager, that.expiredKeyAllowed = true → ∀ keyPairs' : List DnsSecKeyPair,
      that.keyMap.lookup (cdnName "video").toLowerCaseString = some keyPairs' → keyPairs'.Perm [cdnKey 1 1000, cdnKey 0 1000] →
      ∃ keys', that.getKeyPairs (cdnName "video") true true 86400 5000 = some keys' ∧ keys'.map (·.effective) = keys.map (·.effective) :=
  getKeyPairs_signingKey (cdnManager 1000) (cdnName "video") true 86400 5000 [cdnKey 1 1000, cdnKey 0 1000] (by decide)

end TrafficControl.TrafficRouter.Dns.SignatureManager
