import TrafficControl.Lib.FirstDifference
import TrafficControl.TrafficRouter.MatchOrder

set_option autoImplicit false

namespace TrafficControl.TrafficRouter

open FirstDifference Lexicographic

namespace ComparableStringByLength

theorem compareStrings_eq {string other : List Char} (lengths : string.length = other.length) :
    compareStrings string other = compareLists (fun c d : Char => (c.toNat : Int) - d.toNat) string other := by
  induction string generalizing other with
  | nil => cases other <;> simp_all [compareStrings, compareLists]
  | cons c string ih =>
    cases other with
    | nil => simp at lengths
    | cons d other => rw [compareStrings, compareLists, ih (Nat.succ.inj lengths)]

theorem comparator_char : Comparator fun c d : Char => (c.toNat : Int) - d.toNat :=
  comparator_sub fun _ _ same => Char.toNat_inj.mp (Int.ofNat_inj.mp same)

/-- The longer text comes first; texts of one length are in alphabetical order. -/
theorem compareTo_comparator : Comparator compareTo where
  zero string other := by
    unfold compareTo
    split_ifs with lengths longer
    · rw [compareStrings_eq lengths]
      exact comparator_char.compareLists.zero string other
    · exact iff_of_false (by decide) fun same => lengths (congrArg List.length same)
    · exact iff_of_false (by decide) fun same => lengths (congrArg List.length same)
  swap string other := by
    unfold compareTo
    by_cases lengths : string.length = other.length
    · rw [if_pos lengths, if_pos lengths.symm, compareStrings_eq lengths, compareStrings_eq lengths.symm]
      exact comparator_char.compareLists.swap string other
    · rw [if_neg lengths, if_neg (Ne.symm lengths)]
      split_ifs <;> omega
  trans first second third before after := by
    unfold compareTo at before after ⊢
    by_cases left : first.length = second.length
    · by_cases right : second.length = third.length
      · rw [if_pos left, compareStrings_eq left] at before
        rw [if_pos right, compareStrings_eq right] at after
        rw [if_pos (left.trans right), compareStrings_eq (left.trans right)]
        exact comparator_char.compareLists.trans first second third before after
      · rw [if_neg right] at after
        rw [left, if_neg right]
        exact after
    · rw [if_neg left] at before
      by_cases right : second.length = third.length
      · rw [← right, if_neg left]
        exact before
      · rw [if_neg right] at after
        split_ifs at before after ⊢ <;> omega

end ComparableStringByLength

open ComparableStringByLength (compareTo_comparator)

theorem RequestMatcher.compareTo_eq (this other : RequestMatcher) :
    this.compareTo other = ComparableStringByLength.compareTo this.comparableRegex other.comparableRegex := by
  unfold RequestMatcher.compareTo
  split_ifs with same
  · rw [same, compareTo_comparator.refl]
  · rfl

namespace DeliveryServiceMatcher

section Entries

variable {value : Bool} {matcher : RequestMatcher} {matchers : List RequestMatcher} {map : SearchTree (RequestMatcher × Bool)}

/-- The keys of the map ascend. -/
def Ascending (map : SearchTree (RequestMatcher × Bool)) : Prop :=
  map.toList.Pairwise fun a b => a.1.compareTo b.1 < 0

/-- The map holds the value under a key. -/
def Maps (map : SearchTree (RequestMatcher × Bool)) (key : List Char) (value : Bool) : Prop :=
  ∃ entry ∈ map.toList, entry.1.comparableRegex = key ∧ entry.2 = value

theorem splits_of_ascending (ascending : Ascending map) (matcher : RequestMatcher) :
    SearchTree.Splits (fun entry => matcher.compareTo entry.1) map.toList := by
  refine SearchTree.splits_of_ordered _ _ _ ascending (fun a b order below => ?_) fun a b order above => ?_
  · simp only [RequestMatcher.compareTo_eq] at order below ⊢
    exact compareTo_comparator.trans _ _ _ below order
  · simp only [RequestMatcher.compareTo_eq] at order above ⊢
    rw [← compareTo_comparator.swap] at above ⊢
    exact compareTo_comparator.trans _ _ _ order above

/-- Where a put leaves its value: between the smaller and the larger keys, in the place of an entry of its key. -/
theorem toList_put (ascending : Ascending map) (matcher : RequestMatcher) (value : Bool) : ∃ before key after,
    key.comparableRegex = matcher.comparableRegex ∧
      (map.put (fun entry => matcher.compareTo entry.1) (matcher, value) fun entry => (entry.1, value)).toList =
        before ++ (key, value) :: after ∧
      (∀ entry ∈ before, entry.1.compareTo key < 0) ∧ (∀ entry ∈ after, key.compareTo entry.1 < 0) ∧
      (map.toList = before ++ after ∨ ∃ old, map.toList = before ++ (key, old) :: after) := by
  have splits := splits_of_ascending ascending matcher
  by_cases present : ∃ entry ∈ map.toList, matcher.compareTo entry.1 = 0
  · obtain ⟨before, ⟨key, old⟩, after, split, zero, result⟩ :=
      SearchTree.toList_put_present _ (matcher, value) (fun entry => (entry.1, value)) map splits present
    rw [RequestMatcher.compareTo_eq, compareTo_comparator.zero] at zero
    have order : (before ++ (key, old) :: after).Pairwise fun a b => a.1.compareTo b.1 < 0 := split ▸ ascending
    obtain ⟨_, rest, across⟩ := List.pairwise_append.mp order
    exact ⟨before, key, after, zero.symm, result, fun entry member => across entry member (key, old) List.mem_cons_self,
      (List.pairwise_cons.mp rest).1, Or.inr ⟨old, split⟩⟩
  · obtain ⟨before, after, split, result, low, high⟩ :=
      SearchTree.toList_put_absent _ (matcher, value) (fun entry => (entry.1, value)) map splits
        fun entry member zero => present ⟨entry, member, zero⟩
    refine ⟨before, matcher, after, rfl, result, fun entry member => ?_, high, Or.inl split⟩
    have above := low entry member
    rw [RequestMatcher.compareTo_eq] at above ⊢
    exact (compareTo_comparator.swap _ _).mpr above

theorem put_ascending (ascending : Ascending map) (matcher : RequestMatcher) (value : Bool) :
    Ascending (map.put (fun entry => matcher.compareTo entry.1) (matcher, value) fun entry => (entry.1, value)) := by
  obtain ⟨before, key, after, _, result, low, high, split⟩ := toList_put ascending matcher value
  have parts : (before ++ after).Pairwise fun a b => a.1.compareTo b.1 < 0 := by
    unfold Ascending at ascending
    rcases split with split | ⟨_, split⟩
    · rwa [split] at ascending
    · rw [split] at ascending
      exact ascending.sublist ((List.sublist_cons_self _ after).append_left before)
  obtain ⟨left, right, _⟩ := List.pairwise_append.mp parts
  unfold Ascending
  rw [result]
  refine List.pairwise_append.mpr ⟨left, List.pairwise_cons.mpr ⟨high, right⟩, fun a inBefore b inRest => ?_⟩
  rcases List.mem_cons.mp inRest with rfl | inAfter
  · exact low a inBefore
  · have first := low a inBefore
    have second := high b inAfter
    rw [RequestMatcher.compareTo_eq] at first second ⊢
    exact compareTo_comparator.trans _ _ _ first second

/-- A put changes the value of its key only. -/
theorem maps_put (ascending : Ascending map) (matcher : RequestMatcher) (value : Bool) (key : List Char) (v : Bool) :
    Maps (map.put (fun entry => matcher.compareTo entry.1) (matcher, value) fun entry => (entry.1, value)) key v ↔
      if matcher.comparableRegex = key then v = value else Maps map key v := by
  obtain ⟨before, put, after, same, result, low, high, split⟩ := toList_put ascending matcher value
  have apart : ∀ entry ∈ before ++ after, entry.1.comparableRegex ≠ put.comparableRegex := by
    intro entry member equal
    have order : entry.1.compareTo put < 0 ∨ put.compareTo entry.1 < 0 :=
      (List.mem_append.mp member).imp (low entry) (high entry)
    rw [RequestMatcher.compareTo_eq, RequestMatcher.compareTo_eq, equal, compareTo_comparator.refl] at order
    omega
  have members (entry : RequestMatcher × Bool) : entry ∈ before ++ (put, value) :: after ↔ entry = (put, value) ∨ entry ∈ before ++ after := by
    simp only [List.mem_append, List.mem_cons]
    tauto
  unfold Maps
  rw [result]
  simp only [members]
  split_ifs with here
  · constructor
    · rintro ⟨entry, rfl | member, atKey, rfl⟩
      · rfl
      · exact absurd (atKey.trans (here.symm.trans same.symm)) (apart entry member)
    · rintro rfl
      exact ⟨(put, v), Or.inl rfl, same.trans here, rfl⟩
  · have elsewhere (entry : RequestMatcher × Bool) (atKey : entry.1.comparableRegex = key) :
        (entry = (put, value) ∨ entry ∈ before ++ after) ↔ entry ∈ map.toList := by
      have notPut (old : Bool) : entry ≠ (put, old) := fun equal => here (by rw [← same, ← atKey, equal])
      rw [or_iff_right (notPut value)]
      rcases split with split | ⟨old, split⟩
      · rw [split]
      · have notOld := notPut old
        rw [split]
        simp only [List.mem_append, List.mem_cons]
        tauto
    exact exists_congr fun entry => and_congr_left fun ⟨atKey, _⟩ => elsewhere entry atKey

theorem putAll_spec (value : Bool) (matchers : List RequestMatcher) {map : SearchTree (RequestMatcher × Bool)} (ascending : Ascending map) :
    Ascending (putAll value matchers map) ∧ ∀ key v, Maps (putAll value matchers map) key v ↔
      if ∃ matcher ∈ matchers, matcher.comparableRegex = key then v = value else Maps map key v := by
  induction matchers generalizing map with
  | nil => exact ⟨ascending, fun key v => by simp [putAll]⟩
  | cons matcher matchers ih =>
    obtain ⟨ascending', maps⟩ := ih (put_ascending ascending matcher value)
    refine ⟨ascending', fun key v => (maps key v).trans ?_⟩
    rw [maps_put ascending matcher value key v]
    by_cases here : matcher.comparableRegex = key
    · simp [here]
    · simp [here]

/-- The first entry is the one of the least key. -/
theorem head_least {first : RequestMatcher × Bool} {others : List (RequestMatcher × Bool)} (ascending : Ascending map)
    (entries : map.toList = first :: others) {key : List Char} {v : Bool} (maps : Maps map key v) :
    ComparableStringByLength.compareTo first.1.comparableRegex key ≤ 0 ∧ (first.1.comparableRegex = key → first.2 = v) := by
  obtain ⟨entry, member, rfl, rfl⟩ := maps
  unfold Ascending at ascending
  rw [entries] at ascending member
  rcases List.mem_cons.mp member with rfl | later
  · exact ⟨Int.le_of_eq (compareTo_comparator.refl _), fun _ => rfl⟩
  · have before := (List.pairwise_cons.mp ascending).1 entry later
    rw [RequestMatcher.compareTo_eq] at before
    refine ⟨Int.le_of_lt before, fun same => ?_⟩
    rw [same, compareTo_comparator.refl] at before
    exact absurd before (Int.lt_irrefl 0)

end Entries

section Unique

theorem nodup_eraseDups (matchers : List RequestMatcher) : matchers.eraseDups.Nodup := by
  induction length : matchers.length using Nat.strong_induction_on generalizing matchers with
  | _ n ih =>
    cases matchers with
    | nil => exact List.nodup_nil
    | cons matcher matchers =>
      rw [List.eraseDups_cons, List.nodup_cons]
      refine ⟨fun member => ?_, ih _ ?_ _ rfl⟩
      · have kept := List.mem_filter.mp (List.mem_eraseDups.mp member)
        simp at kept
      · rw [← length]
        exact Nat.lt_succ_of_le (List.length_filter_le _ _)

/-- One round of the loop: a matcher of both lists is taken out of both. -/
def removeShared (lists : List RequestMatcher × List RequestMatcher) (matcher : RequestMatcher) :
    List RequestMatcher × List RequestMatcher :=
  if lists.2.contains matcher then (lists.1.erase matcher, lists.2.erase matcher) else lists

/-- After the loop each list has its elements that the other one lacks. -/
theorem mem_removeShared {matchers : List RequestMatcher} {lists : List RequestMatcher × List RequestMatcher} (mineOnce : lists.1.Nodup)
    (theirsOnce : lists.2.Nodup) (r : RequestMatcher) :
    (r ∈ (matchers.foldl removeShared lists).1 ↔ r ∈ lists.1 ∧ ¬(r ∈ matchers ∧ r ∈ lists.2)) ∧
      (r ∈ (matchers.foldl removeShared lists).2 ↔ r ∈ lists.2 ∧ r ∉ matchers) := by
  induction matchers generalizing lists with
  | nil => simp
  | cons matcher matchers ih =>
    rw [List.foldl_cons]
    by_cases shared : matcher ∈ lists.2
    · have step : removeShared lists matcher = (lists.1.erase matcher, lists.2.erase matcher) := if_pos (List.contains_iff_mem.mpr shared)
      obtain ⟨mine, theirs⟩ := @ih (lists.1.erase matcher, lists.2.erase matcher) (mineOnce.erase matcher) (theirsOnce.erase matcher)
      rw [step, mine, theirs, mineOnce.mem_erase_iff, theirsOnce.mem_erase_iff, List.mem_cons]
      by_cases same : r = matcher
      · simp [same, shared]
      · simp [same]
    · have step : removeShared lists matcher = lists := if_neg fun contained => shared (List.contains_iff_mem.mp contained)
      obtain ⟨mine, theirs⟩ := ih mineOnce theirsOnce
      rw [step, mine, theirs, List.mem_cons]
      by_cases same : r = matcher
      · simp [same, shared]
      · simp [same]

end Unique

section Order

/-- By the least comparable regex of the matchers in only one of two lists. -/
def Before (this that : DeliveryServiceMatcher) : Prop :=
  Precedes RequestMatcher.comparableRegex ComparableStringByLength.compareTo this.requestMatchers that.requestMatchers

/-- That least comparable regex belongs to matchers of both lists. -/
def FirstTie (this that : DeliveryServiceMatcher) : Prop :=
  Tie RequestMatcher.comparableRegex ComparableStringByLength.compareTo this.requestMatchers that.requestMatchers

def SameSet (this that : DeliveryServiceMatcher) : Prop := ∀ r, r ∈ this.requestMatchers ↔ r ∈ that.requestMatchers

variable {this that a b c : DeliveryServiceMatcher}

/-- A key with matchers of the second list has the value `false`, one of the first list only `true`. -/
theorem maps_unique (uniqueToThis uniqueToThat : List RequestMatcher) :
    Ascending (putAll false uniqueToThat (putAll true uniqueToThis .leaf)) ∧
      ∀ key, (Maps (putAll false uniqueToThat (putAll true uniqueToThis .leaf)) key true ↔
          (∃ r ∈ uniqueToThis, r.comparableRegex = key) ∧ ¬∃ r ∈ uniqueToThat, r.comparableRegex = key) ∧
        (Maps (putAll false uniqueToThat (putAll true uniqueToThis .leaf)) key false ↔ ∃ r ∈ uniqueToThat, r.comparableRegex = key) := by
  have nothing (key : List Char) (v : Bool) : ¬Maps .leaf key v := fun ⟨_, member, _⟩ => List.not_mem_nil member
  obtain ⟨ascending, mine⟩ := putAll_spec true uniqueToThis (show Ascending .leaf from List.Pairwise.nil)
  obtain ⟨ascending', both⟩ := putAll_spec false uniqueToThat ascending
  refine ⟨ascending', fun key => ?_⟩
  rw [both, both, mine, mine]
  have noLeaf := nothing key
  by_cases inThat : ∃ r ∈ uniqueToThat, r.comparableRegex = key
  · simp [inThat]
  · by_cases inThis : ∃ r ∈ uniqueToThis, r.comparableRegex = key
    · simp [inThat, inThis]
    · simp [inThat, inThis, noLeaf]

/-- The three outcomes of a comparison. -/
theorem compareTo_cases (this that : DeliveryServiceMatcher) :
    SameSet this that ∧ this.compareTo that = 0 ∨ Before this that ∧ this.compareTo that = -1 ∨
      ¬SameSet this that ∧ ¬Before this that ∧ this.compareTo that = 1 := by
  by_cases equal : this = that
  · exact Or.inl ⟨fun r => by rw [equal], by rw [DeliveryServiceMatcher.compareTo, if_pos equal]⟩
  have loop : (fun lists (matcher : RequestMatcher) =>
      if lists.2.contains matcher then (lists.1.erase matcher, lists.2.erase matcher) else (lists.1, lists.2)) = removeShared := rfl
  have members := @mem_removeShared this.requestMatchers (this.requestMatchers.eraseDups, that.requestMatchers.eraseDups)
    (nodup_eraseDups _) (nodup_eraseDups _)
  rw [DeliveryServiceMatcher.compareTo, if_neg equal, loop]
  generalize this.requestMatchers.foldl removeShared (this.requestMatchers.eraseDups, that.requestMatchers.eraseDups) = lists at members ⊢
  obtain ⟨uniqueToThis, uniqueToThat⟩ := lists
  dsimp only at members ⊢
  have mine (r : RequestMatcher) : r ∈ uniqueToThis ↔ r ∈ this.requestMatchers ∧ r ∉ that.requestMatchers := by
    rw [(members r).1, List.mem_eraseDups, List.mem_eraseDups]
    tauto
  have theirs (r : RequestMatcher) : r ∈ uniqueToThat ↔ r ∈ that.requestMatchers ∧ r ∉ this.requestMatchers := by
    rw [(members r).2, List.mem_eraseDups]
  obtain ⟨ascending, maps⟩ := maps_unique uniqueToThis uniqueToThat
  -- Every key of one of the lists is in the map.
  have present (r : RequestMatcher) (inLists : r ∈ uniqueToThis ∨ r ∈ uniqueToThat) :
      ∃ v, Maps (putAll false uniqueToThat (putAll true uniqueToThis .leaf)) r.comparableRegex v := by
    by_cases inThat : ∃ r' ∈ uniqueToThat, r'.comparableRegex = r.comparableRegex
    · exact ⟨false, (maps _).2.mpr inThat⟩
    · refine ⟨true, (maps _).1.mpr ⟨⟨r, inLists.resolve_right fun member => inThat ⟨r, member, rfl⟩, rfl⟩, inThat⟩⟩
  cases entries : (putAll false uniqueToThat (putAll true uniqueToThis .leaf)).toList with
  | nil =>
    have none (r : RequestMatcher) : ¬(r ∈ uniqueToThis ∨ r ∈ uniqueToThat) := fun inLists => by
      obtain ⟨_, entry, member, _⟩ := present r inLists
      rw [entries] at member
      exact List.not_mem_nil member
    refine Or.inl ⟨fun r => ?_, rfl⟩
    have absent := none r
    rw [mine, theirs] at absent
    tauto
  | cons first others =>
    have own : Maps (putAll false uniqueToThat (putAll true uniqueToThis .leaf)) first.1.comparableRegex first.2 :=
      ⟨first, entries ▸ List.mem_cons_self, rfl, rfl⟩
    have different : SameSet this that → False := fun same => by
      have none (r : RequestMatcher) : r ∉ uniqueToThis ∧ r ∉ uniqueToThat := by
        rw [mine, theirs, same r]
        tauto
      cases value : first.2 with
      | true =>
        rw [value] at own
        obtain ⟨⟨r, member, _⟩, _⟩ := (maps _).1.mp own
        exact (none r).1 member
      | false =>
        rw [value] at own
        obtain ⟨r, member, _⟩ := (maps _).2.mp own
        exact (none r).2 member
    cases value : first.2 with
    | true =>
      rw [value] at own
      obtain ⟨⟨x, inThis, atFirst⟩, notInThat⟩ := (maps _).1.mp own
      obtain ⟨inMine, notTheirs⟩ := (mine x).mp inThis
      refine Or.inr (Or.inl ⟨⟨x, inMine, notTheirs, fun y inTheirs notMine => ?_⟩, by simp [value]⟩)
      have inThat := (theirs y).mpr ⟨inTheirs, notMine⟩
      obtain ⟨least, sameValue⟩ := head_least ascending entries ((maps _).2.mpr ⟨y, inThat, rfl⟩)
      rw [atFirst]
      refine Int.lt_iff_le_and_ne.mpr ⟨least, fun zero => ?_⟩
      exact notInThat ⟨y, inThat, ((compareTo_comparator.zero _ _).mp zero).symm⟩
    | false =>
      rw [value] at own
      obtain ⟨y, inThat, atFirst⟩ := (maps _).2.mp own
      obtain ⟨inTheirs, notMine⟩ := (theirs y).mp inThat
      refine Or.inr (Or.inr ⟨different, ?_, by simp [value]⟩)
      rintro ⟨x, inMine, notTheirs, above⟩
      obtain ⟨_, held⟩ := present x (Or.inl ((mine x).mpr ⟨inMine, notTheirs⟩))
      have order := compareTo_comparator.lt_of_le_of_lt (head_least ascending entries held).1 (above y inTheirs notMine)
      rw [atFirst, compareTo_comparator.refl] at order
      exact absurd order (Int.lt_irrefl 0)

theorem compareTo_neg : this.compareTo that < 0 ↔ Before this that := by
  rcases compareTo_cases this that with ⟨same, result⟩ | ⟨before, result⟩ | ⟨_, notBefore, result⟩
  · rw [result]
    exact iff_of_false (by decide) fun ⟨x, inThis, notInThat, _⟩ => notInThat ((same x).mp inThis)
  · rw [result]
    exact iff_of_true (by decide) before
  · rw [result]
    exact iff_of_false (by decide) notBefore

theorem compareTo_zero : this.compareTo that = 0 ↔ SameSet this that := by
  rcases compareTo_cases this that with ⟨same, result⟩ | ⟨⟨x, inThis, notInThat, _⟩, result⟩ | ⟨different, _, result⟩
  · exact iff_of_true result same
  · rw [result]
    exact iff_of_false (by decide) fun same => notInThat ((same x).mp inThis)
  · rw [result]
    exact iff_of_false (by decide) different

theorem compareTo_sign : (this.compareTo that).sign = this.compareTo that := by
  rcases compareTo_cases this that with ⟨_, result⟩ | ⟨_, result⟩ | ⟨_, _, result⟩
  all_goals
    rw [result]
    rfl

theorem compareTo_antisymm_iff : (a.compareTo b).sign = -(b.compareTo a).sign ↔ ¬FirstTie a b := by
  have asymm : Before a b → ¬Before b a := Precedes.asymm compareTo_comparator
  rw [compareTo_sign, compareTo_sign]
  constructor
  · intro opposite tie
    obtain ⟨notBefore, notAfter⟩ := tie.not_precedes compareTo_comparator
    obtain ⟨x, inA, notInB, _⟩ := tie
    rcases compareTo_cases a b with ⟨same, _⟩ | ⟨before, _⟩ | ⟨_, _, result⟩
    · exact notInB ((same x).mp inA)
    · exact notBefore before
    rcases compareTo_cases b a with ⟨same, _⟩ | ⟨after, _⟩ | ⟨_, _, result'⟩
    · exact notInB ((same x).mpr inA)
    · exact notAfter after
    rw [result, result'] at opposite
    exact absurd opposite (by decide)
  · intro apart
    rcases compareTo_cases a b with ⟨same, result⟩ | ⟨before, result⟩ | ⟨different, notBefore, result⟩
    · rw [result, compareTo_zero.mpr fun r => (same r).symm]
      rfl
    · rcases compareTo_cases b a with ⟨same, _⟩ | ⟨after, _⟩ | ⟨_, _, result'⟩
      · obtain ⟨x, inA, notInB, _⟩ := before
        exact absurd ((same x).mpr inA) notInB
      · exact absurd after (asymm before)
      · rw [result, result']
    · have after : Before b a := by
        rcases cases_of_different compareTo_comparator different with before | after | tie
        · exact absurd before notBefore
        · exact after
        · exact absurd tie apart
      rcases compareTo_cases b a with ⟨same, _⟩ | ⟨_, result'⟩ | ⟨_, notAfter, _⟩
      · exact absurd (fun r => (same r).symm) different
      · rw [result, result']
        rfl
      · exact absurd after notAfter

/-- The signs are opposite unless the least comparable regex that tells the lists apart is in both; the order is transitive, and
only match lists of one set compare as equal. -/
theorem compareTo_order_iff (a b c : DeliveryServiceMatcher) :
    (a.compareTo b).sign = -(b.compareTo a).sign ∧ (a.compareTo b < 0 → b.compareTo c < 0 → a.compareTo c < 0) ∧
      (a.compareTo b = 0 → a = b ∨ SameSet a b) ↔ ¬FirstTie a b := by
  have transitive : a.compareTo b < 0 → b.compareTo c < 0 → a.compareTo c < 0 := by
    rw [compareTo_neg, compareTo_neg, compareTo_neg]
    exact Precedes.trans compareTo_comparator
  rw [and_iff_left ⟨transitive, fun zero => Or.inr (compareTo_zero.mp zero)⟩]
  exact compareTo_antisymm_iff

def hostService : DeliveryServiceMatcher := ⟨"host", [⟨.HOST, ".*abc.*", "", ['a', 'b', 'c', '.']⟩]⟩

def pathService : DeliveryServiceMatcher := ⟨"path", [⟨.PATH, ".*abc.*", "", ['a', 'b', 'c', '.']⟩]⟩

/-- Each of two services with the same regex for the host and for the path comes after the other one. -/
theorem compareTo_hostPath :
    (⟨"host", []⟩ : DeliveryServiceMatcher).addMatch MatchSets.wordEngine .HOST ".*abc.*" "" = .ok hostService ∧
      (⟨"path", []⟩ : DeliveryServiceMatcher).addMatch MatchSets.wordEngine .PATH ".*abc.*" "" = .ok pathService ∧
      hostService.compareTo pathService = 1 ∧ pathService.compareTo hostService = 1 ∧
      (hostService.compareTo pathService).sign ≠ -(pathService.compareTo hostService).sign := by
  have forward : hostService.compareTo pathService = 1 := by decide +kernel
  have backward : pathService.compareTo hostService = 1 := by decide +kernel
  refine ⟨by decide +kernel, by decide +kernel, forward, backward, ?_⟩
  rw [forward, backward]
  decide

end Order

end DeliveryServiceMatcher

end TrafficControl.TrafficRouter
