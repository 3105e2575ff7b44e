import TrafficControl.TrafficRouter.NetworkNode

set_option autoImplicit false

namespace TrafficControl.TrafficRouter.NetworkNode

open CidrAddress

variable {α : Type}

/-- Siblings are strictly ordered, hence disjoint; children lie strictly inside their parent. -/
inductive WF : List (ChildEntry α) → Prop
  | mk {entries : List (ChildEntry α)}
    (ordered : entries.Pairwise fun a b => a.2.cidrAddress.compareTo b.2.cidrAddress < 0)
    (keys : ∀ e ∈ entries, (keyAddress e).SamePrefix e.2.cidrAddress)
    (nested : ∀ e ∈ entries, ∀ c ∈ e.2.children.toList, c.2.cidrAddress.Inside e.2.cidrAddress)
    (subtrees : ∀ e ∈ entries, WF e.2.children.toList) : WF entries

inductive Occurs (network : CidrAddress × α) : List (ChildEntry α) → Prop
  | here {entries : List (ChildEntry α)} {e : ChildEntry α} (member : e ∈ entries)
    (same : e.2.label = network) : Occurs network entries
  | deeper {entries : List (ChildEntry α)} {e : ChildEntry α} (member : e ∈ entries)
    (occurs : Occurs network e.2.children.toList) : Occurs network entries

theorem WF.ordered {entries : List (ChildEntry α)} (wf : WF entries) :
    entries.Pairwise fun a b => a.2.cidrAddress.compareTo b.2.cidrAddress < 0 := by
  cases wf; assumption

theorem WF.keys {entries : List (ChildEntry α)} (wf : WF entries) :
    ∀ e ∈ entries, (keyAddress e).SamePrefix e.2.cidrAddress := by
  cases wf; assumption

theorem WF.nested {entries : List (ChildEntry α)} (wf : WF entries) :
    ∀ e ∈ entries, ∀ c ∈ e.2.children.toList, c.2.cidrAddress.Inside e.2.cidrAddress := by
  cases wf; assumption

theorem WF.subtrees {entries : List (ChildEntry α)} (wf : WF entries) :
    ∀ e ∈ entries, WF e.2.children.toList := by
  cases wf; assumption

theorem WF.sublist {entries kept : List (ChildEntry α)} (wf : WF entries) (sub : kept.Sublist entries) :
    WF kept :=
  .mk (wf.ordered.sublist sub) (fun e member => wf.keys e (sub.subset member))
    (fun e member => wf.nested e (sub.subset member)) (fun e member => wf.subtrees e (sub.subset member))

theorem disjoint_of_ordered {entries : List (ChildEntry α)}
    (ordered : entries.Pairwise fun a b => a.2.cidrAddress.compareTo b.2.cidrAddress < 0) :
    ∀ e ∈ entries, ∀ e' ∈ entries, e = e' ∨ ¬e.2.cidrAddress.Overlaps e'.2.cidrAddress := by
  apply List.Pairwise.forall_of_forall_of_flip
  · exact fun e _ => Or.inl rfl
  · exact ordered.imp fun before => Or.inr (compareTo_neg_not_overlaps before)
  · exact ordered.imp fun before => Or.inr fun overlap =>
      compareTo_neg_not_overlaps before (overlaps_comm.mp overlap)

theorem WF.unique {entries : List (ChildEntry α)} (wf : WF entries) {e e' : ChildEntry α}
    (member : e ∈ entries) (member' : e' ∈ entries)
    (overlap : e.2.cidrAddress.Overlaps e'.2.cidrAddress) : e = e' :=
  (disjoint_of_ordered wf.ordered e member e' member').resolve_right fun apart => apart overlap

theorem WF.splits {entries : List (ChildEntry α)} (wf : WF entries) (searched : CidrAddress) :
    SearchTree.Splits (compareToKey searched) entries := by
  refine SearchTree.splits_of_ordered _ _ _ (List.Pairwise.and_mem.mp wf.ordered) ?_ ?_
  · rintro a b ⟨aMember, bMember, before⟩ lower
    rw [compareToKey, compareTo_neg_congr (wf.keys a aMember)] at lower
    rw [compareToKey, compareTo_neg_congr (wf.keys b bMember)]
    exact compareTo_trans lower before
  · rintro a b ⟨aMember, bMember, before⟩ upper
    rw [compareToKey, compareTo_pos_congr (wf.keys b bMember), compareTo_pos] at upper
    rw [compareToKey, compareTo_pos_congr (wf.keys a aMember), compareTo_pos]
    exact compareTo_trans before upper

theorem WF.compareToKey_eq_zero {entries : List (ChildEntry α)} (wf : WF entries)
    (searched : CidrAddress) {e : ChildEntry α} (member : e ∈ entries) :
    compareToKey searched e = 0 ↔ searched.Overlaps e.2.cidrAddress := by
  rw [compareToKey, compareTo_eq_zero]
  exact overlaps_congr (wf.keys e member)

theorem WF.occurs_inside {entries : List (ChildEntry α)} (wf : WF entries) {outer : CidrAddress}
    (nested : ∀ e ∈ entries, e.2.cidrAddress.Inside outer) {network : CidrAddress × α}
    (occurs : Occurs network entries) : network.1.Inside outer := by
  induction occurs generalizing outer with
  | here member same => exact same ▸ nested _ member
  | deeper member _ ih =>
    have inner := ih (wf.subtrees _ member) (wf.nested _ member)
    exact inside_of_within inner.2 (nested _ member)

theorem WF.occurs_within {entries : List (ChildEntry α)} (wf : WF entries) {network : CidrAddress × α}
    (occurs : Occurs network entries) : ∃ e ∈ entries, network.1.Within e.2.cidrAddress ∧
      (e.2.label = network ∨ network.1.Inside e.2.cidrAddress ∧ Occurs network e.2.children.toList) := by
  cases occurs with
  | @here _ e member same => exact ⟨e, member, same ▸ within_refl _, Or.inl same⟩
  | @deeper _ e member deeper =>
    have inner := (wf.subtrees e member).occurs_inside (wf.nested e member) deeper
    exact ⟨e, member, inner.2, Or.inr ⟨inner, deeper⟩⟩

section Lookup

variable {ip : CidrAddress}

-- The result of a lookup below `entries`: the deepest node holding the address.
def Deepest (ip : CidrAddress) (entries : List (ChildEntry α)) (found : NetworkNode α) : Prop :=
  Occurs found.label entries ∧ ip.Within found.cidrAddress ∧
    ∀ network, Occurs network entries → ip.Within network.1 →
      network = found.label ∨ network.1.netmaskLength < found.cidrAddress.netmaskLength

theorem WF.get_hit {entries : List (ChildEntry α)} (wf : WF entries) {children : Children α}
    (contents : children.toList = entries) {c : ChildEntry α}
    (hit : children.get (compareToKey ip) = some c) :
    c ∈ entries ∧ ip.Overlaps c.2.cidrAddress := by
  have ⟨member, zero⟩ := SearchTree.get_mem hit
  rw [contents] at member
  exact ⟨member, (wf.compareToKey_eq_zero ip member).mp zero⟩

theorem WF.get_miss {entries : List (ChildEntry α)} (wf : WF entries) {children : Children α}
    (contents : children.toList = entries) (miss : children.get (compareToKey ip) = none)
    {network : CidrAddress × α} (occurs : Occurs network entries) : ¬ip.Within network.1 := by
  intro within
  have absent := (SearchTree.get_eq_none (contents ▸ wf.splits ip)).mp miss
  rw [contents] at absent
  obtain ⟨e, member, outer, _⟩ := wf.occurs_within occurs
  apply absent e member
  rw [wf.compareToKey_eq_zero ip member]
  exact overlaps_of_within (within_trans within outer)

theorem WF.getNetwork_deepest {entries : List (ChildEntry α)} (wf : WF entries)
    (fits : ∀ network, Occurs network entries → network.1.netmaskLength ≤ ip.netmaskLength)
    {children : Children α} (contents : children.toList = entries) {c : ChildEntry α}
    (hit : children.get (compareToKey ip) = some c) :
    ∃ found, c.2.getNetwork ip = some found ∧ Deepest ip entries found := by
  induction wf generalizing children c with
  | @mk entries ordered keys nested subtrees ih =>
    have wf : WF entries := .mk ordered keys nested subtrees
    obtain ⟨member, overlap⟩ := wf.get_hit contents hit
    have inC : ip.Within c.2.cidrAddress :=
      within_of_overlaps overlap (fits c.2.label (.here member rfl))
    have zero : c.2.cidrAddress.compareTo ip = 0 :=
      (compareTo_eq_zero _ _).mpr (overlaps_comm.mp overlap)
    -- Every other network holding the address lies below `c`.
    have belowC (network : CidrAddress × α) (occurs : Occurs network entries)
        (within : ip.Within network.1) :
        network = c.2.label ∨ Occurs network c.2.children.toList := by
      obtain ⟨e, eMember, outer, cases⟩ := wf.occurs_within occurs
      obtain rfl : e = c := wf.unique eMember member
        (overlaps_of_within_both (within_trans within outer) inC)
      exact cases.imp Eq.symm And.right
    rw [getNetwork_eq]
    simp only [zero, ne_eq, not_true_eq_false, if_false]
    split
    next miss =>
      refine ⟨c.2, rfl, .here member rfl, inC, fun network occurs within => ?_⟩
      rcases belowC network occurs within with same | deeper
      · exact Or.inl same
      · exact absurd within ((subtrees c member).get_miss rfl miss deeper)
    next inner innerHit =>
      obtain ⟨found, result, occurs, within, deepest⟩ := ih c member
        (fun network occurs => fits network (.deeper member occurs)) rfl innerHit
      refine ⟨found, result, .deeper member occurs, within, fun network other inside => ?_⟩
      rcases belowC network other inside with rfl | deeper
      · exact Or.inr ((subtrees c member).occurs_inside (nested c member) occurs).1
      · exact deepest network deeper inside

end Lookup

end TrafficControl.TrafficRouter.NetworkNode
