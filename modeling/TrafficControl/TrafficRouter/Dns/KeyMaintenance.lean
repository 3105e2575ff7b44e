import Mathlib.Data.List.Forall2
import Mathlib.Data.List.Induction
import TrafficControl.TrafficRouter.Dns.SignatureManager

set_option autoImplicit false

namespace TrafficControl.TrafficRouter.Dns

namespace DnsSecKeyPair

theorem equals_iff {a b : DnsSecKeyPair} :
    a.equals b = true ↔ a.dnskeyRecord.identity = b.dnskeyRecord.identity ∧ a.privateKey = b.privateKey ∧
      a.effective = b.effective ∧ a.expiration = b.expiration ∧ a.inception = b.inception ∧ a.name = b.name ∧
      a.ttl = b.ttl := by
  simp [equals, and_assoc]

theorem equals_refl (a : DnsSecKeyPair) : a.equals a = true := by
  simp [equals]

theorem equals_trans {a b c : DnsSecKeyPair} (ab : a.equals b) (bc : b.equals c) : a.equals c := by
  rw [equals_iff] at *
  obtain ⟨record, key, effective, expiration, inception, name, ttl⟩ := ab
  simpa only [record, key, effective, expiration, inception, name, ttl] using bc

end DnsSecKeyPair

namespace SignatureManager

/-- Each key of the second list equals one of the first. -/
def Covers (held wanted : List DnsSecKeyPair) : Prop := ∀ key ∈ wanted, ∃ other ∈ held, key.equals other

theorem covers_of_subset {held wanted : List DnsSecKeyPair} (subset : wanted ⊆ held) : Covers held wanted :=
  fun key member => ⟨key, subset member, key.equals_refl⟩

theorem Covers.trans {a b c : List DnsSecKeyPair} (ab : Covers a b) (bc : Covers b c) : Covers a c := by
  intro key member
  obtain ⟨middle, inB, same⟩ := bc key member
  obtain ⟨other, inA, same'⟩ := ab middle inB
  exact ⟨other, inA, DnsSecKeyPair.equals_trans same same'⟩

def keysOf (keyMap : KeyMap) : List DnsSecKeyPair := keyMap.entries.flatMap fun entry => entry.2

theorem mem_keysOf {keyMap : KeyMap} {key : DnsSecKeyPair} :
    key ∈ keysOf keyMap ↔ ∃ name keys, keyMap.lookup name = some keys ∧ key ∈ keys := by
  unfold keysOf
  rw [List.mem_flatMap]
  constructor
  · rintro ⟨⟨name, keys⟩, inEntries, member⟩
    exact ⟨name, keys, AList.mem_lookup_iff.mpr inEntries, member⟩
  · rintro ⟨name, keys, found, member⟩
    exact ⟨⟨name, keys⟩, AList.mem_lookup_iff.mp found, member⟩

-- The keys are filed under their names.
def Filed (keyMap : KeyMap) : Prop :=
  ∀ name keys, keyMap.lookup name = some keys → keys ≠ [] ∧ ∀ key ∈ keys, key.name = name

theorem lookup_addKeyPair (keyMap : KeyMap) (dkpw : DnsSecKeyPair) (name : String) :
    (addKeyPair keyMap dkpw).lookup name =
      if name = dkpw.name then some ((keyMap.lookup dkpw.name).getD [] ++ [dkpw]) else keyMap.lookup name := by
  unfold addKeyPair
  split_ifs with same
  · rw [same, AList.lookup_insert]
  · rw [AList.lookup_insert_ne same]

theorem filed_addKeyPair {keyMap : KeyMap} (filed : Filed keyMap) (dkpw : DnsSecKeyPair) :
    Filed (addKeyPair keyMap dkpw) := by
  intro name keys found
  rw [lookup_addKeyPair] at found
  split_ifs at found with same
  · obtain rfl := Option.some.inj found
    refine ⟨by simp, fun key member => ?_⟩
    rcases List.mem_append.mp member with earlier | last
    · cases group : keyMap.lookup dkpw.name with
      | none => simp [group] at earlier
      | some keys => exact same ▸ (filed _ keys group).2 key (by simpa [group] using earlier)
    · rw [List.mem_singleton.mp last, same]
  · exact filed name keys found

theorem mem_keysOf_addKeyPair {keyMap : KeyMap} {dkpw key : DnsSecKeyPair} :
    key ∈ keysOf (addKeyPair keyMap dkpw) ↔ key ∈ keysOf keyMap ∨ key = dkpw := by
  simp only [mem_keysOf, lookup_addKeyPair]
  constructor
  · rintro ⟨name, keys, found, member⟩
    split_ifs at found with same
    · obtain rfl := Option.some.inj found
      cases group : keyMap.lookup dkpw.name with
      | none => exact Or.inr (by simpa [group] using member)
      | some keys =>
        rw [group, Option.getD_some, List.mem_append, List.mem_singleton] at member
        exact member.imp_left fun earlier => ⟨_, keys, group, earlier⟩
    · exact Or.inl ⟨name, keys, found, member⟩
  · rintro (⟨name, keys, found, member⟩ | rfl)
    · by_cases same : name = dkpw.name
      · subst same
        exact ⟨dkpw.name, _, if_pos rfl, by simp [found, member]⟩
      · exact ⟨name, keys, by rw [if_neg same, found], member⟩
    · exact ⟨key.name, _, if_pos rfl, by simp⟩

theorem filed_newKeyMap (keyPairs : List DnsSecKeyPair) : Filed (newKeyMap keyPairs) := by
  induction keyPairs using List.reverseRecOn with
  | nil =>
    intro name keys found
    cases found
  | append_singleton keyPairs dkpw ih =>
    rw [newKeyMap, List.foldl_concat]
    exact filed_addKeyPair ih dkpw

theorem mem_keysOf_newKeyMap {keyPairs : List DnsSecKeyPair} {key : DnsSecKeyPair} :
    key ∈ keysOf (newKeyMap keyPairs) ↔ key ∈ keyPairs := by
  induction keyPairs using List.reverseRecOn with
  | nil => exact Iff.rfl
  | append_singleton keyPairs dkpw ih =>
    rw [newKeyMap, List.foldl_concat, mem_keysOf_addKeyPair, List.mem_append, List.mem_singleton]
    exact or_congr_left ih

/-- The comparison answers no just when the old map covers the new one. -/
theorem hasNewKeys_eq_false {keyMap : KeyMap} (filed : Filed keyMap) (keyPairs : List DnsSecKeyPair) :
    hasNewKeys keyMap (newKeyMap keyPairs) = false ↔ Covers (keysOf keyMap) keyPairs := by
  simp only [hasNewKeys, List.any_eq_false]
  constructor
  · intro nothingNew key member
    obtain ⟨name, keys, found, inKeys⟩ := mem_keysOf.mp (mem_keysOf_newKeyMap.mpr member)
    have compared := nothingNew ⟨name, keys⟩ (AList.mem_lookup_iff.mp found)
    dsimp only at compared
    split at compared
    next => simp at compared
    next old group =>
      simp only [List.any_eq_true, Bool.not_eq_true', List.any_eq_false, not_exists, not_and] at compared
      have matched := compared key inKeys
      push Not at matched
      obtain ⟨other, inOld, same⟩ := matched
      exact ⟨other, mem_keysOf.mpr ⟨name, old, group, inOld⟩, same⟩
  · rintro covers ⟨name, keys⟩ inEntries
    have found := AList.mem_lookup_iff.mpr inEntries
    obtain ⟨nonempty, names⟩ := filed_newKeyMap keyPairs name keys found
    -- An equal key of the old map has the same name, so it is in the group that is searched.
    have matched : ∀ key ∈ keys, ∃ old, keyMap.lookup name = some old ∧ ∃ other ∈ old, key.equals other := by
      intro key inKeys
      have member := mem_keysOf_newKeyMap.mp (mem_keysOf.mpr ⟨name, keys, found, inKeys⟩)
      obtain ⟨other, inOld, same⟩ := covers key member
      obtain ⟨name', old, group, inGroup⟩ := mem_keysOf.mp inOld
      have sameName : name' = name := by
        rw [← (filed name' old group).2 other inGroup, ← names key inKeys]
        exact (DnsSecKeyPair.equals_iff.mp same).2.2.2.2.2.1.symm
      exact ⟨old, sameName ▸ group, other, inGroup, same⟩
    obtain ⟨first, inKeys⟩ := List.exists_mem_of_ne_nil keys nonempty
    obtain ⟨old, group, _⟩ := matched first inKeys
    dsimp only
    rw [group]
    simp only [List.any_eq_true, Bool.not_eq_true', List.any_eq_false, not_exists, not_and]
    intro key inKeys unmatched
    obtain ⟨old', group', other, inOld, same⟩ := matched key inKeys
    obtain rfl : old = old' := Option.some.inj (group.symm.trans group')
    exact unmatched other inOld same

/-- The map holds exactly the keys of a fetch. -/
def Holds (keyPairs : List DnsSecKeyPair) (keyMap : Option KeyMap) : Prop :=
  ∃ held ∈ keyMap, Covers (keysOf held) keyPairs ∧ Covers keyPairs (keysOf held)

/-- If the newer fetch has only keys of the older one, it has all of them. -/
def Noticed (older newer : List DnsSecKeyPair) : Prop := Covers older newer → Covers newer older

section Runs

variable (newKeyPair : JsonNode → Except KeyPairException DnsSecKeyPair)

-- The key maps after each run of the task for a sequence of fetched documents.
def keyMaps : Option KeyMap → List JsonNode → List (Option KeyMap)
  | _, [] => []
  | keyMap, document :: documents =>
    let next := (maintainKeys newKeyPair keyMap (some document)).1
    next :: keyMaps next documents

variable {newKeyPair}

theorem holds_newKeyMap (keyPairs : List DnsSecKeyPair) : Holds keyPairs (some (newKeyMap keyPairs)) :=
  ⟨_, rfl, covers_of_subset fun _ => mem_keysOf_newKeyMap.mpr, covers_of_subset fun _ => mem_keysOf_newKeyMap.mp⟩

/-- One run of the task from a map that follows the older fetch. -/
theorem maintainKeys_step {keyMap : KeyMap} (filed : Filed keyMap) {older newer : List DnsSecKeyPair}
    (holds : Holds older (some keyMap)) {document : JsonNode} (read : readKeyPairs newKeyPair document = .ok newer) :
    ∃ next, (maintainKeys newKeyPair (some keyMap) (some document)).1 = some next ∧ Filed next ∧
      (Holds newer (some next) ↔ Noticed older newer) := by
  obtain ⟨_, ⟨⟩, holdsOlder, olderHolds⟩ := holds
  have compared := hasNewKeys_eq_false filed newer
  have sameCover : Covers (keysOf keyMap) newer ↔ Covers older newer :=
    ⟨fun covers => olderHolds.trans covers, fun covers => holdsOlder.trans covers⟩
  rw [sameCover] at compared
  simp only [maintainKeys, Option.map_some, read]
  cases found : hasNewKeys keyMap (newKeyMap newer) with
  | true =>
    refine ⟨newKeyMap newer, rfl, filed_newKeyMap newer, ?_⟩
    have uncovered : ¬Covers older newer := fun covers => by simp [compared.mpr covers] at found
    exact ⟨fun _ covers => absurd covers uncovered, fun _ => holds_newKeyMap newer⟩
  | false =>
    refine ⟨keyMap, rfl, filed, ?_⟩
    have covers := compared.mp found
    constructor
    · rintro ⟨_, ⟨⟩, _, newerHolds⟩ _
      exact newerHolds.trans holdsOlder
    · intro noticed
      exact ⟨keyMap, rfl, sameCover.mpr covers, (noticed covers).trans olderHolds⟩

theorem keyMaps_follow {keyMap : KeyMap} (filed : Filed keyMap) {older : List DnsSecKeyPair}
    (holds : Holds older (some keyMap)) {documents : List JsonNode} {fetches : List (List DnsSecKeyPair)}
    (read : List.Forall₂ (fun document fetch => readKeyPairs newKeyPair document = .ok fetch) documents fetches) :
    List.Forall₂ Holds fetches (keyMaps newKeyPair (some keyMap) documents) ↔
      (older :: fetches).IsChain Noticed := by
  induction read generalizing keyMap older with
  | nil => simp [keyMaps]
  | @cons document newer documents fetches read _ ih =>
    obtain ⟨next, stepped, nextFiled, follows⟩ := maintainKeys_step filed holds read
    rw [keyMaps, stepped, List.forall₂_cons, List.isChain_cons_cons, follows]
    exact and_congr_right fun noticed => ih nextFiled (follows.mpr noticed)

/-- The key map holds the keys of the last fetch after every run just when each fetch that drops a
key also has a new one. -/
theorem keyMaps_follow_iff {documents : List JsonNode} {fetches : List (List DnsSecKeyPair)}
    (read : List.Forall₂ (fun document fetch => readKeyPairs newKeyPair document = .ok fetch) documents fetches) :
    List.Forall₂ Holds fetches (keyMaps newKeyPair none documents) ↔ fetches.IsChain Noticed := by
  cases read with
  | nil => simp [keyMaps]
  | @cons document first documents fetches firstRead read =>
    have initial : (maintainKeys newKeyPair none (some document)).1 = some (newKeyMap first) := by
      simp [maintainKeys, firstRead]
    rw [keyMaps, initial, List.forall₂_cons, and_iff_right (holds_newKeyMap first)]
    exact keyMaps_follow (filed_newKeyMap first) (holds_newKeyMap first) read

def zoneKeyPair (name : String) : DnsSecKeyPair where
  name := name
  ttl := 60
  inception := 0
  effective := 1000
  expiration := 90000000
  dnskeyRecord := ⟨⟨[]⟩, Record.DNSKEY, Record.IN, 60, [.octets [1, 1, 3, 8, 42]]⟩
  privateKey := [42]

def namedKeyPair (keyPair : JsonNode) : Except KeyPairException DnsSecKeyPair :=
  match keyPair.get "name" with
  | some name => .ok (zoneKeyPair name.asText)
  | none => .error .logged

-- A document with one KSK for each of the zones.
def zoneDocument (names : List String) : JsonNode :=
  .object [("response", .object (names.map fun name =>
    (name, .object [("ksk", .array [.object [("name", .text name)]])])))]

theorem keyMaps_follow_iff_added :
    List.Forall₂ Holds [[zoneKeyPair "a.cdn."], [zoneKeyPair "a.cdn.", zoneKeyPair "b.cdn."]]
      (keyMaps namedKeyPair none [zoneDocument ["a.cdn."], zoneDocument ["a.cdn.", "b.cdn."]]) := by
  refine (keyMaps_follow_iff (.cons rfl (.cons rfl .nil))).mpr ?_
  exact .cons_cons (fun _ => covers_of_subset (by simp)) (.singleton _)

/-- A zone that is gone from the key store stays in the key map. -/
theorem keyMaps_removed : ∃ fetches,
    List.Forall₂ (fun document fetch => readKeyPairs namedKeyPair document = .ok fetch)
      [zoneDocument ["a.cdn.", "b.cdn."], zoneDocument ["a.cdn."]] fetches ∧
      ¬List.Forall₂ Holds fetches
        (keyMaps namedKeyPair none [zoneDocument ["a.cdn.", "b.cdn."], zoneDocument ["a.cdn."]]) := by
  refine ⟨_, .cons rfl (.cons rfl .nil), fun follow => ?_⟩
  obtain ⟨_, last⟩ := List.forall₂_cons.mp follow
  obtain ⟨⟨held, same, _, exactly⟩, _⟩ := List.forall₂_cons.mp last
  have kept : newKeyMap [zoneKeyPair "a.cdn.", zoneKeyPair "b.cdn."] = held := Option.some.inj same
  subst kept
  have removed := exactly (zoneKeyPair "b.cdn.") (by decide)
  exact absurd removed (by decide)

end Runs

end SignatureManager

end TrafficControl.TrafficRouter.Dns
