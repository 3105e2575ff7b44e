import TrafficControl.Lib.Lexicographic
import TrafficControl.TrafficRouter.Dns.Record

set_option autoImplicit false

namespace TrafficControl.TrafficRouter.Dns

open Lexicographic SignedBytes

theorem compareOctets_eq (left right : List Byte) :
    compareOctets left right = compareLists (fun a b : Byte => (a.toNat : Int) - b.toNat) left right := by
  induction left generalizing right with
  | nil => cases right <;> rfl
  | cons a left ih =>
    cases right with
    | nil => rfl
    | cons b right => rw [compareOctets, compareLists, ih]

theorem compareOctets_comparator : Comparator compareOctets := by
  rw [funext₂ compareOctets_eq]
  exact (comparator_sub fun a b same => BitVec.eq_of_toNat_eq (Int.ofNat_inj.mp same)).compareLists

theorem compareLabels_eq (left right : List (List Byte)) : compareLabels left right = compareLists compareOctets left right := by
  induction left generalizing right with
  | nil => cases right <;> rfl
  | cons a left ih =>
    cases right with
    | nil => rfl
    | cons b right => rw [compareLabels, compareLists, ih]

theorem compareLabels_comparator : Comparator compareLabels := by
  rw [funext₂ compareLabels_eq]
  exact compareOctets_comparator.compareLists

namespace Name

variable {a b c : Name}

theorem equals_iff : a.equals b = true ↔ a.canonical = b.canonical := beq_iff_eq

theorem compareTo_zero : a.compareTo b = 0 ↔ a.equals b = true := by
  rw [compareTo, compareLabels_comparator.zero, List.reverse_inj, equals_iff]

theorem compareTo_swap : a.compareTo b < 0 ↔ 0 < b.compareTo a := compareLabels_comparator.swap _ _

theorem compareTo_trans (first : a.compareTo b < 0) (second : b.compareTo c < 0) : a.compareTo c < 0 :=
  compareLabels_comparator.trans _ _ _ first second

theorem compareTo_le_trans (first : a.compareTo b ≤ 0) (second : b.compareTo c ≤ 0) : a.compareTo c ≤ 0 :=
  compareLabels_comparator.le_trans first second

theorem compareTo_total (a b : Name) : a.compareTo b ≤ 0 ∨ b.compareTo a ≤ 0 := compareLabels_comparator.total _ _

theorem subdomain_iff : a.subdomain b = true ↔ b.canonical <:+ a.canonical := by
  rw [subdomain, List.isSuffixOf_iff_suffix]

theorem length_canonical (name : Name) : name.canonical.length = name.labels.length := List.length_map _

/-- An ancestor comes before its descendants. -/
theorem compareTo_of_subdomain (below : b.subdomain a = true) (shorter : a.labels.length < b.labels.length) : a.compareTo b < 0 := by
  obtain ⟨labels, same⟩ := subdomain_iff.mp below
  have more : labels.reverse ≠ [] := fun none => by
    rw [List.reverse_eq_nil_iff.mp none, List.nil_append] at same
    have lengths := congrArg List.length same
    rw [length_canonical, length_canonical] at lengths
    omega
  rw [compareTo, ← same, List.reverse_append, compareLabels_eq]
  exact compareLists_append _ more

/-- The ancestors of a name are ancestors of one another. -/
theorem subdomain_of_subdomains (first : c.subdomain a = true) (second : c.subdomain b = true) (longer : a.labels.length ≤ b.labels.length) :
    b.subdomain a = true := by
  rw [subdomain_iff] at first second ⊢
  exact List.suffix_of_suffix_length_le first second (by rw [length_canonical, length_canonical]; exact longer)

end Name

end TrafficControl.TrafficRouter.Dns
