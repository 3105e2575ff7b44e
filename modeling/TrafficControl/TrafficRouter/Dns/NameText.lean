import TrafficControl.Lib.PrefixCode
import TrafficControl.TrafficRouter.Dns.SignatureManager

set_option autoImplicit false

namespace TrafficControl.TrafficRouter.Dns

open PrefixCode SignedBytes

namespace Name

-- A label has at least one octet.
def Valid (name : Name) : Prop := ∀ label ∈ name.labels, label ≠ []

-- The text of an octet, or of the end of a label.
def octetText : Option Byte → List Char
  | none => ['.']
  | some octet => byteString [octet]

-- The number of the octet that a text starts with, 256 for the end of a label.
def readOctet : List Char → Nat
  | [] => 0
  | c :: rest =>
    if c = '.' then 256
    else if c ≠ '\\' then c.toNat
    else
      let digit i := (rest.getD i '0').toNat - 48
      if (rest.getD 0 '0').isDigit then digit 0 * 100 + digit 1 * 10 + digit 2 else (rest.getD 0 '0').toNat

theorem digitChar_toNat {d : Nat} (small : d < 10) : (Nat.digitChar d).isDigit = true ∧ (Nat.digitChar d).toNat - 48 = d := by
  have all : ∀ d < 10, (Nat.digitChar d).isDigit = true ∧ (Nat.digitChar d).toNat - 48 = d := by decide
  exact all d small

theorem readOctet_octetText (octet : Option Byte) (rest : List Char) : readOctet (octetText octet ++ rest) = octet.elim 256 BitVec.toNat := by
  cases octet with
  | none => rfl
  | some octet =>
    have bound := octet.isLt
    have code : (Char.ofNat octet.toNat).toNat = octet.toNat := by
      rw [Char.ofNat, dif_pos (Or.inl (by omega))]
      rfl
    simp only [octetText, byteString, List.flatMap_cons, List.flatMap_nil, List.append_nil]
    split_ifs with unprintable special
    · obtain ⟨first, hundreds⟩ := @digitChar_toNat (octet.toNat / 100) (by omega)
      have tens := (@digitChar_toNat (octet.toNat / 10 % 10) (by omega)).2
      have ones := (@digitChar_toNat (octet.toNat % 10) (by omega)).2
      simp only [List.cons_append, List.nil_append, readOctet, List.getD_cons_zero, List.getD_cons_succ, first, hundreds, tens, ones]
      simp
      omega
    · have letter : (Char.ofNat octet.toNat).isDigit = false := by
        simp only [List.mem_cons, List.not_mem_nil, or_false] at special
        rcases special with c | c | c | c | c | c | c | c <;> rw [c] <;> rfl
      simp [readOctet, letter, code]
    · simp only [List.mem_cons, not_or] at special
      simp [readOctet, special, code]

theorem octetText_prefixFree : PrefixFree octetText := by
  intro a b s t same
  have number := congrArg readOctet same
  rw [readOctet_octetText, readOctet_octetText] at number
  cases a with
  | none =>
    cases b with
    | none => rfl
    | some b => exact absurd number (Nat.ne_of_gt b.isLt)
  | some a =>
    cases b with
    | none => exact absurd number (Nat.ne_of_lt a.isLt)
    | some b => exact congrArg some (BitVec.eq_of_toNat_eq number)

theorem octetText_ne_nil (octet : Option Byte) : octetText octet ≠ [] := by
  cases octet with
  | none => exact List.cons_ne_nil _ _
  | some octet =>
    simp only [octetText, byteString, List.flatMap_cons, List.flatMap_nil, List.append_nil]
    split_ifs <;> exact List.cons_ne_nil _ _

theorem labels_text (labels : List (List Byte)) :
    labels.flatMap (fun label => byteString label ++ ['.']) = (labels.flatMap terminated).flatMap octetText := by
  have label (label : List Byte) : (terminated label).flatMap octetText = byteString label ++ ['.'] := by
    unfold terminated
    rw [List.flatMap_append, List.flatMap_map]
    unfold octetText byteString
    simp
  simp only [List.flatMap_assoc, label]

/-- The text of a valid name shows its labels, letter case included. -/
theorem toString_injective {a b : Name} (validA : a.Valid) (validB : b.Valid) (same : a.toString = b.toString) : a = b := by
  have root {name : Name} (valid : name.Valid) (text : name.labels.flatMap (fun label => byteString label ++ ['.']) = ['.']) : False := by
    obtain ⟨labels⟩ := name
    have one : ['.'] = ([none] : List (Option Byte)).flatMap octetText := rfl
    rw [labels_text, one] at text
    have marks := octetText_prefixFree.flatMap_injective octetText_ne_nil text
    cases labels with
    | nil => cases marks
    | cons label labels =>
      cases label with
      | nil => exact valid [] List.mem_cons_self rfl
      | cons octet label => cases marks
  have lists : (if a.labels.isEmpty then ['.'] else a.labels.flatMap fun label => byteString label ++ ['.']) =
      if b.labels.isEmpty then ['.'] else b.labels.flatMap fun label => byteString label ++ ['.'] := String.ofList_injective same
  obtain ⟨labels⟩ := a
  obtain ⟨labels'⟩ := b
  split_ifs at lists with empty empty' empty'
  · exact congrArg mk ((List.isEmpty_iff.mp empty).trans (List.isEmpty_iff.mp empty').symm)
  · exact (root validB lists.symm).elim
  · exact (root validA lists).elim
  · rw [labels_text, labels_text] at lists
    have marks := octetText_prefixFree.flatMap_injective octetText_ne_nil lists
    exact congrArg mk (terminated_prefixFree.flatMap_injective terminated_ne_nil marks)

end Name

end TrafficControl.TrafficRouter.Dns
