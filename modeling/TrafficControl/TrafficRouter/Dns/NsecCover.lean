import TrafficControl.TrafficRouter.Dns.ZoneSignerImpl

set_option autoImplicit false

namespace TrafficControl.TrafficRouter.Dns

open ZoneSignerImpl

namespace Name

variable {a b c : Name}

theorem compareTo_congr_left (same : a.equals b = true) : a.compareTo c = b.compareTo c := by
  rw [compareTo, compareTo, equals_iff.mp same]

theorem compareTo_congr_right (same : a.equals b = true) : c.compareTo a = c.compareTo b := by
  rw [compareTo, compareTo, equals_iff.mp same]

theorem equals_refl (a : Name) : a.equals a = true := equals_iff.mpr rfl

theorem equals_symm (same : a.equals b = true) : b.equals a = true := equals_iff.mpr (equals_iff.mp same).symm

theorem equals_congr_left (same : a.equals b = true) : a.equals c = b.equals c := by
  rw [equals, equals, equals_iff.mp same]

theorem compareTo_irrefl (a : Name) : ¬a.compareTo a < 0 := by
  rw [compareTo_zero.mpr (equals_refl a)]
  exact lt_irrefl 0

theorem compareTo_asymm (before : a.compareTo b < 0) : ¬b.compareTo a < 0 := fun after =>
  compareTo_irrefl a (compareTo_trans before after)

theorem compareTo_trichotomy (a b : Name) : a.compareTo b < 0 ∨ a.equals b = true ∨ b.compareTo a < 0 := by
  rcases lt_trichotomy (a.compareTo b) 0 with before | same | after
  · exact Or.inl before
  · exact Or.inr (Or.inl (compareTo_zero.mp same))
  · exact Or.inr (Or.inr (compareTo_swap.mpr after))

/-- A proper ancestor comes before the names below it. -/
theorem compareTo_of_below (below : b.subdomain a = true) (different : b.equals a = false) : a.compareTo b < 0 := by
  refine compareTo_of_subdomain below (lt_of_le_of_ne ?_ fun lengths => ?_)
  · rw [← a.length_canonical, ← b.length_canonical]
    exact (subdomain_iff.mp below).length_le
  · rw [← a.length_canonical, ← b.length_canonical] at lengths
    rw [← Bool.not_eq_true, equals_iff] at different
    exact different ((subdomain_iff.mp below).eq_of_length lengths).symm

end Name

/-- The name lies in the gap after the owner; the last gap has no end. -/
def NSECRecord.Covers (nsec : NSECRecord) (name : Name) : Prop :=
  nsec.name.compareTo name < 0 ∧ (name.compareTo nsec.next < 0 ∨ nsec.next.compareTo nsec.name ≤ 0)

instance (nsec : NSECRecord) (name : Name) : Decidable (nsec.Covers name) := inferInstanceAs (Decidable (_ ∧ _))

namespace ZoneSignerImpl

section Cover

variable {records : List Record} {nsecRecords : List NSECRecord} {nsec : NSECRecord} {name : Name}

/-- No owner lies after the one of a covering record and not after the name. -/
theorem NsecChain.covers_iff (chain : NsecChain records nsecRecords) (member : nsec ∈ nsecRecords) :
    nsec.Covers name ↔ nsec.name.compareTo name < 0 ∧
      ∀ record ∈ records, nsec.name.compareTo record.name < 0 → name.compareTo record.name < 0 := by
  obtain ⟨i, inside, rfl⟩ := List.getElem_of_mem member
  have positive : 0 < nsecRecords.length := Nat.zero_lt_of_lt inside
  have wraps : (i + 1) % nsecRecords.length < nsecRecords.length := Nat.mod_lt _ positive
  have next : nsecRecords[i].next = nsecRecords[(i + 1) % nsecRecords.length].name := by
    have entries := congrArg (fun names => names[i]?) chain.cycle
    simpa [List.getElem?_rotate, inside, wraps, List.getElem_rotate] using entries
  have ascending : ∀ j k (below : j < k) (bound : k < nsecRecords.length), nsecRecords[j].name.compareTo nsecRecords[k].name < 0 := by
    intro j k below bound
    have names := List.pairwise_iff_getElem.mp chain.ascending j k (by simp; omega) (by simpa using bound) below
    simpa using names
  -- Every owner is the name of some record of the chain.
  have owner : ∀ record ∈ records, ∃ j, ∃ bound : j < nsecRecords.length, nsecRecords[j].name.equals record.name = true := by
    intro record inRecords
    obtain ⟨other, inChain, same⟩ := (chain.owners record.name).mpr ⟨record, inRecords, Name.equals_refl _⟩
    obtain ⟨j, bound, rfl⟩ := List.getElem_of_mem inChain
    exact ⟨j, bound, same⟩
  refine and_congr_right fun before => ?_
  rw [next]
  by_cases last : i + 1 < nsecRecords.length
  · simp only [Nat.mod_eq_of_lt last]
    have step := ascending i (i + 1) (Nat.lt_succ_self i) last
    have forward : ¬nsecRecords[i + 1].name.compareTo nsecRecords[i].name ≤ 0 := by
      rw [Name.compareTo_swap] at step
      omega
    rw [or_iff_left forward]
    constructor
    · intro inGap record inRecords after
      obtain ⟨j, bound, same⟩ := owner record inRecords
      rw [← Name.compareTo_congr_right same] at after ⊢
      rcases Nat.lt_trichotomy j (i + 1) with low | rfl | high
      · rcases Nat.lt_or_eq_of_le (Nat.le_of_lt_succ low) with lower | rfl
        · exact absurd after (Name.compareTo_asymm (ascending j i lower inside))
        · exact absurd after (Name.compareTo_irrefl _)
      · exact inGap
      · exact Name.compareTo_trans inGap (ascending (i + 1) j high bound)
    · intro gap
      obtain ⟨record, inRecords, same⟩ := (chain.owners nsecRecords[i + 1].name).mp
        ⟨nsecRecords[i + 1], List.getElem_mem last, Name.equals_refl _⟩
      rw [← Name.compareTo_congr_right same]
      refine gap record inRecords ?_
      rw [Name.compareTo_congr_right same]
      exact step
  · have wrapped : i + 1 = nsecRecords.length := by omega
    simp only [wrapped, Nat.mod_self]
    refine iff_of_true (Or.inr ?_) fun record inRecords after => ?_
    · rcases Nat.eq_zero_or_pos i with rfl | later
      · exact le_of_eq (Name.compareTo_zero.mpr (Name.equals_refl _))
      · exact (ascending 0 i later inside).le
    · obtain ⟨j, bound, same⟩ := owner record inRecords
      rw [← Name.compareTo_congr_right same] at after
      rcases Nat.lt_or_eq_of_le (show j ≤ i by omega) with lower | rfl
      · exact absurd after (Name.compareTo_asymm (ascending j i lower inside))
      · exact absurd after (Name.compareTo_irrefl _)

theorem NsecChain.covers_congr (chain : NsecChain records nsecRecords) {other : NSECRecord} (member : nsec ∈ nsecRecords)
    (member' : other ∈ nsecRecords) (same : nsec.name.equals other.name = true) : nsec.Covers name ↔ other.Covers name := by
  rw [chain.covers_iff member, chain.covers_iff member']
  simp only [Name.compareTo_congr_left same]

/-- A name after the first owner that is no owner itself is covered. -/
theorem NsecChain.exists_covers (chain : NsecChain records nsecRecords) (after : ∃ nsec ∈ nsecRecords, nsec.name.compareTo name < 0)
    (absent : ∀ record ∈ records, record.name.equals name = false) : ∃ nsec ∈ nsecRecords, nsec.Covers name := by
  -- The covering record is the last one before the name.
  have last : ∀ list : List NSECRecord, (list.map (·.name)).Pairwise (fun a b => a.compareTo b < 0) →
      (∃ nsec ∈ list, nsec.name.compareTo name < 0) →
      ∃ nsec ∈ list, nsec.name.compareTo name < 0 ∧
        ∀ other ∈ list, nsec.name.compareTo other.name < 0 → ¬other.name.compareTo name < 0 := by
    intro list ascending before
    induction list with
    | nil => simp at before
    | cons first list ih =>
      rw [List.map_cons, List.pairwise_cons] at ascending
      by_cases rest : ∃ nsec ∈ list, nsec.name.compareTo name < 0
      · obtain ⟨nsec, member, lower, upper⟩ := ih ascending.2 rest
        refine ⟨nsec, List.mem_cons_of_mem _ member, lower, fun other inList higher => ?_⟩
        rcases List.mem_cons.mp inList with rfl | inList
        · exact absurd higher (Name.compareTo_asymm (ascending.1 nsec.name (List.mem_map_of_mem member)))
        · exact upper other inList higher
      · obtain ⟨nsec, member, lower⟩ := before
        rcases List.mem_cons.mp member with rfl | member
        · refine ⟨nsec, List.mem_cons_self, lower, fun other inList higher below => ?_⟩
          rcases List.mem_cons.mp inList with rfl | inList
          · exact Name.compareTo_irrefl _ higher
          · exact rest ⟨other, inList, below⟩
        · exact absurd ⟨nsec, member, lower⟩ rest
  obtain ⟨nsec, member, lower, upper⟩ := last nsecRecords chain.ascending after
  refine ⟨nsec, member, (chain.covers_iff member).mpr ⟨lower, fun record inRecords higher => ?_⟩⟩
  obtain ⟨other, inChain, same⟩ := (chain.owners record.name).mpr ⟨record, inRecords, Name.equals_refl _⟩
  rw [← Name.compareTo_congr_right same] at higher ⊢
  rcases Name.compareTo_trichotomy name other.name with before | equal | below
  · exact before
  · have elsewhere := absent record inRecords
    rw [← Bool.not_eq_true, Name.equals_iff] at elsewhere
    exact absurd ((Name.equals_iff.mp same).symm.trans (Name.equals_iff.mp equal).symm) elsewhere
  · exact absurd below (upper other inChain higher)

/-- Only one record of the chain covers a name. -/
theorem NsecChain.covers_unique (chain : NsecChain records nsecRecords) {other : NSECRecord} (member : nsec ∈ nsecRecords)
    (member' : other ∈ nsecRecords) (covers : nsec.Covers name) (covers' : other.Covers name) : nsec.name.equals other.name = true := by
  have notBefore : ∀ {a b : NSECRecord}, a ∈ nsecRecords → b ∈ nsecRecords → a.Covers name → b.Covers name →
      ¬a.name.compareTo b.name < 0 := by
    intro a b inChain inChain' coversA coversB before
    obtain ⟨record, inRecords, same⟩ := (chain.owners b.name).mp ⟨b, inChain', Name.equals_refl _⟩
    have later := ((chain.covers_iff inChain).mp coversA).2 record inRecords (by rwa [Name.compareTo_congr_right same])
    rw [Name.compareTo_congr_right same] at later
    exact Name.compareTo_asymm later coversB.1
  rcases Name.compareTo_trichotomy nsec.name other.name with before | same | after
  · exact absurd before (notBefore member member' covers covers')
  · exact same
  · exact absurd after (notBefore member' member covers' covers)

end Cover

end ZoneSignerImpl

end TrafficControl.TrafficRouter.Dns
