import Mathlib.Algebra.Ring.Int.Defs
import Mathlib.Algebra.Ring.Nat
import Mathlib.Data.List.Infix
import Mathlib.Data.List.TakeWhile

set_option autoImplicit false

-- The string functions of the C library, on what stands before the NUL.
namespace CStrings

/-- From the first occurrence on. -/
def strstr (needle : List Char) : List Char → Option (List Char)
  | [] => if needle = [] then some [] else none
  | c :: s => if needle.isPrefixOf (c :: s) then some (c :: s) else strstr needle s

/-- The next token, and where to go on. -/
def strtok_r (delims s : List Char) : Option (List Char × List Char) :=
  match s.dropWhile (· ∈ delims) with
  | [] => none
  | c :: s => some ((c :: s).takeWhile (· ∉ delims), ((c :: s).dropWhile (· ∉ delims)).tail)

/-- All tokens, one call of `strtok_r` after the other. -/
def tokens (delims s : List Char) : List (List Char) := (s.splitOnP (· ∈ delims)).filter (· ≠ [])

def isspace (c : Char) : Bool := c ∈ [' ', '\t', '\n', '\x0b', '\x0c', '\r']

def digit (base : Nat) (c : Char) : Option Nat :=
  let value :=
    if '0' ≤ c ∧ c ≤ '9' then c.toNat - '0'.toNat
    else if 'a' ≤ c ∧ c ≤ 'z' then c.toNat - 'a'.toNat + 10
    else if 'A' ≤ c ∧ c ≤ 'Z' then c.toNat - 'A'.toNat + 10
    else base
  if value < base then some value else none

/-- The digits after those of `n`, up to what is no digit. -/
def digits (base : Nat) : Nat → List Char → Nat
  | n, [] => n
  | n, c :: s => (digit base c).elim n fun d => digits base (n * base + d) s

-- With a `long` of 64 bits; what is out of its range is cut to it.
def strtol (base : Nat) (s : List Char) : Int :=
  let s := s.dropWhile isspace
  let (negative, s) := match s with
    | '-' :: s => (true, s)
    | '+' :: s => (false, s)
    | s => (false, s)
  let s := if base = 16 then match s with
    | '0' :: 'x' :: s | '0' :: 'X' :: s => s
    | s => s
  else s
  let n : Int := digits base 0 s
  if negative then max (-2 ^ 63) (-n) else min (2 ^ 63 - 1) n

example : [strtol 10 " -08,".toList, strtol 10 "x".toList, strtol 16 "0x10a".toList] = [-8, 0, 266] := by decide

section Search

variable {needle s : List Char}

theorem strstr_prefix {found : List Char} (search : strstr needle s = some found) : needle <+: found := by
  induction s with
  | nil =>
    unfold strstr at search
    split at search
    · next empty =>
      rw [empty]
      exact List.nil_prefix
    · cases search
  | cons c s ih =>
    unfold strstr at search
    split at search
    · next here =>
      cases search
      exact List.isPrefixOf_iff_prefix.mp here
    · exact ih search

/-- The first occurrence is at the end of the text. -/
theorem strstr_self_iff (word : needle ≠ []) : strstr needle s = some needle ↔ needle <:+ s ∧ ¬needle <:+: s.dropLast := by
  induction s with
  | nil => simp [strstr, word]
  | cons c s ih =>
    unfold strstr
    split
    · next here =>
      have starts := List.isPrefixOf_iff_prefix.mp here
      constructor
      · intro same
        have whole : c :: s = needle := Option.some.inj same
        refine ⟨whole ▸ List.suffix_rfl, fun inner => ?_⟩
        have long := inner.length_le
        rw [← whole, List.length_dropLast, List.length_cons] at long
        omega
      · rintro ⟨-, outer⟩
        obtain ⟨rest, same⟩ := starts
        cases rest using List.reverseRecOn with
        | nil => rw [← same, List.append_nil]
        | append_singleton rest last =>
          refine absurd ?_ outer
          rw [← same, ← List.append_assoc, List.dropLast_concat]
          exact ⟨[], rest, rfl⟩
    · next notHere =>
      have different : ¬needle <+: c :: s := fun starts => notHere (List.isPrefixOf_iff_prefix.mpr starts)
      have whole : needle ≠ c :: s := fun same => different (same ▸ List.prefix_rfl)
      rw [ih, List.suffix_cons_iff, or_iff_right whole]
      refine and_congr_right fun suffix => not_congr ?_
      cases s with
      | nil => exact absurd (List.suffix_nil.mp suffix) word
      | cons d s =>
        rw [List.dropLast_cons_cons, List.infix_cons_iff]
        refine (or_iff_right fun starts => different ?_).symm
        exact starts.trans ((List.prefix_cons_inj c).mpr (List.dropLast_prefix _))

end Search

section Tokens

variable {delims s : List Char}

theorem tokens_cons (c : Char) (s : List Char) (skipped : c ∈ delims) : tokens delims (c :: s) = tokens delims s := by
  simp [tokens, List.splitOnP_cons_eq_if_modifyHead, skipped]

theorem tokens_token {token : List Char} (whole : ∀ c ∈ token, c ∉ delims) (some : token ≠ []) {rest : List Char}
    (ended : ∀ c ∈ rest.head?, c ∈ delims) : tokens delims (token ++ rest) = token :: tokens delims rest.tail := by
  cases rest with
  | nil =>
    rw [List.append_nil, tokens, List.splitOnP_eq_singleton fun c member => by simpa using whole c member]
    simp [tokens, some]
  | cons c rest =>
    have separator : c ∈ delims := ended c rfl
    rw [tokens, List.splitOnP_append_cons_of_forall_mem (fun c member => by simpa using whole c member) c (by simpa using separator)]
    simp [tokens, some]

/-- The loop `while (tok = strtok_r(p, delims, &p))`. -/
theorem tokens_eq (delims s : List Char) :
    tokens delims s = (strtok_r delims s).elim [] fun next => next.1 :: tokens delims next.2 := by
  induction s with
  | nil => simp [tokens, strtok_r]
  | cons c s ih =>
    by_cases skipped : c ∈ delims
    · rw [tokens_cons c s skipped, ih]
      simp [strtok_r, skipped]
    · have split := List.takeWhile_append_dropWhile (p := fun c => decide (c ∉ delims)) (l := c :: s)
      have whole : ∀ d ∈ (c :: s).takeWhile (· ∉ delims), d ∉ delims := fun d member => by
        simpa using List.mem_takeWhile_imp member
      have some : (c :: s).takeWhile (· ∉ delims) ≠ [] := by simp [skipped]
      have ended : ∀ d ∈ ((c :: s).dropWhile (· ∉ delims)).head?, d ∈ delims := fun d first => by
        have stopped := List.head?_dropWhile_not (fun c => decide (c ∉ delims)) (c :: s)
        rw [Option.mem_def.mp first] at stopped
        simpa using stopped
      have tokens := tokens_token whole some ended
      rw [split] at tokens
      rw [tokens]
      simp [strtok_r, skipped]

theorem strtok_r_isSome : (strtok_r delims s).isSome = true ↔ tokens delims s ≠ [] := by
  rw [tokens_eq]
  cases strtok_r delims s <;> simp

end Tokens

theorem strtol_digits {s : List Char} (some : s ≠ []) (decimal : s.all Char.isDigit = true) (short : digits 10 0 s < 2 ^ 63) :
    strtol 10 s = digits 10 0 s := by
  cases s with
  | nil => exact absurd rfl some
  | cons c s =>
    have first : c.isDigit = true := List.all_eq_true.mp decimal c List.mem_cons_self
    have unspaced : isspace c = false := by
      simp only [isspace, decide_eq_false_iff_not]
      intro space
      simp only [List.mem_cons, List.not_mem_nil, or_false] at space
      rcases space with rfl | rfl | rfl | rfl | rfl | rfl <;> cases first
    have minus : c ≠ '-' := by
      rintro rfl
      cases first
    have plus : c ≠ '+' := by
      rintro rfl
      cases first
    unfold strtol
    rw [List.dropWhile_cons, unspaced]
    simp [minus, plus]
    omega

end CStrings
