import TrafficControl.Lib.Regexp
import Mathlib.Data.List.Forall2

set_option autoImplicit false

-- Expressions with groups, and the texts of the groups in the leftmost match that is preferred.
namespace Submatch

inductive CharClass where
  | only (c : Char)
  | line
  | except (c : Char)
deriving DecidableEq

def CharClass.accepts : CharClass → Char → Bool
  | only c, d => d == c
  | line, d => d != '\n'
  | except c, d => d != c

inductive Expr where
  | empty
  | one (accepted : CharClass)
  | more (accepted : CharClass)
  | atEnd
  | cat (first second : Expr)
  | maybe (e : Expr)
  | group (e : Expr)
deriving DecidableEq

namespace Expr

def seq (es : List Expr) : Expr := es.foldr cat empty

-- One character of each class.
def spelled (classes : List CharClass) : List Expr := classes.map one

def chars (text : List Char) : List Expr := spelled (text.map .only)

def groups : Expr → Nat
  | cat a b => a.groups + b.groups
  | maybe e => e.groups
  | group e => e.groups + 1
  | _ => 0

end Expr

structure Run where
  consumed : List Char
  rest : List Char
  captures : List (List Char)
deriving DecidableEq

-- The nonempty starts of a text that lie in a class, the longest first.
def longest (accepted : CharClass) : List Char → List Run
  | [] => []
  | c :: s =>
    if accepted.accepts c then
      (longest accepted s).map (fun x => ⟨c :: x.consumed, x.rest, []⟩) ++ [⟨[c], s, []⟩]
    else []

/-- The ways to read the start of a text, in the order in which they are tried. -/
def runs : Expr → List Char → List Run
  | .empty, s => [⟨[], s, []⟩]
  | .one accepted, s =>
    match s with
    | [] => []
    | c :: s => if accepted.accepts c then [⟨[c], s, []⟩] else []
  | .more accepted, s => longest accepted s
  | .atEnd, s => if s.isEmpty then [⟨[], [], []⟩] else []
  | .cat a b, s => (runs a s).flatMap fun x =>
      (runs b x.rest).map fun y => ⟨x.consumed ++ y.consumed, y.rest, x.captures ++ y.captures⟩
  -- A group that takes no part in a match has the empty text.
  | .maybe e, s => runs e s ++ [⟨[], s, List.replicate e.groups []⟩]
  | .group e, s => (runs e s).map fun x => ⟨x.consumed, x.rest, x.consumed :: x.captures⟩

/-- The texts of the leftmost match and of its groups. -/
def findSubmatch (e : Expr) (s : List Char) : Option (List (List Char)) :=
  match runs e s with
  | x :: _ => some (x.consumed :: x.captures)
  | [] =>
    match s with
    | [] => none
    | _ :: s => findSubmatch e s

section Reads

open Submatch.Expr

/-- The expression can read the start of `s` and leave `rest`. -/
def Reads (e : Expr) (s rest : List Char) : Prop := ∃ x ∈ runs e s, x.rest = rest

variable {s rest : List Char}

@[simp] theorem reads_empty : Reads empty s rest ↔ s = rest := by simp [Reads, runs]

@[simp] theorem reads_one {accepted : CharClass} :
    Reads (one accepted) s rest ↔ ∃ c, accepted.accepts c = true ∧ s = c :: rest := by
  unfold Reads
  cases s with
  | nil => simp [runs]
  | cons c s =>
    by_cases accept : accepted.accepts c = true
    · simp [runs, accept]
    · simp only [runs, accept, Bool.false_eq_true, if_false, List.not_mem_nil, false_and, exists_false, List.cons.injEq,
        false_iff]
      rintro ⟨d, accept', rfl, -⟩
      exact accept accept'

@[simp] theorem reads_atEnd : Reads atEnd s rest ↔ s = [] ∧ rest = [] := by
  cases s with
  | nil => simp [Reads, runs, eq_comm]
  | cons c s => simp [Reads, runs]

@[simp] theorem reads_cat {a b : Expr} : Reads (cat a b) s rest ↔ ∃ middle, Reads a s middle ∧ Reads b middle rest := by
  constructor
  · rintro ⟨x, member, rfl⟩
    obtain ⟨y, first, last⟩ := List.mem_flatMap.mp member
    obtain ⟨z, second, rfl⟩ := List.mem_map.mp last
    exact ⟨y.rest, ⟨y, first, rfl⟩, ⟨z, second, rfl⟩⟩
  · rintro ⟨_, ⟨y, first, rfl⟩, ⟨z, second, rfl⟩⟩
    exact ⟨_, List.mem_flatMap.mpr ⟨y, first, List.mem_map.mpr ⟨z, second, rfl⟩⟩, rfl⟩

@[simp] theorem reads_maybe {e : Expr} : Reads (maybe e) s rest ↔ Reads e s rest ∨ s = rest := by
  simp only [Reads, runs, List.mem_append, List.mem_singleton, or_and_right, exists_or, exists_eq_left]

@[simp] theorem reads_group {e : Expr} : Reads (group e) s rest ↔ Reads e s rest := by
  simp only [Reads, runs, List.mem_map]
  constructor
  · rintro ⟨_, ⟨x, member, rfl⟩, left⟩
    exact ⟨x, member, left⟩
  · rintro ⟨x, member, left⟩
    exact ⟨_, ⟨x, member, rfl⟩, left⟩

@[simp] theorem reads_more {accepted : CharClass} :
    Reads (more accepted) s rest ↔ ∃ part, part ≠ [] ∧ (∀ c ∈ part, accepted.accepts c = true) ∧ s = part ++ rest := by
  unfold Reads runs
  induction s with
  | nil =>
    simp only [longest, List.not_mem_nil, false_and, exists_false, false_iff]
    rintro ⟨part, nonempty, -, split⟩
    exact nonempty (List.append_eq_nil_iff.mp split.symm).1
  | cons c s ih =>
    by_cases accept : accepted.accepts c = true
    · simp only [longest, accept, if_true, List.mem_append, List.mem_map, List.mem_singleton]
      constructor
      · rintro ⟨_, ⟨x, member, rfl⟩ | rfl, left⟩
        · obtain ⟨part, -, all, rfl⟩ := ih.mp ⟨x, member, left⟩
          exact ⟨c :: part, List.cons_ne_nil _ _, List.forall_mem_cons.mpr ⟨accept, all⟩, rfl⟩
        · exact ⟨[c], List.cons_ne_nil _ _, List.forall_mem_cons.mpr ⟨accept, by simp⟩, congrArg (c :: ·) left⟩
      · rintro ⟨part, nonempty, all, split⟩
        obtain ⟨d, part, rfl⟩ := List.exists_cons_of_ne_nil nonempty
        obtain ⟨rfl, rfl⟩ := List.cons.inj split
        by_cases last : part = []
        · subst last
          exact ⟨_, Or.inr rfl, rfl⟩
        · obtain ⟨x, member, left⟩ := ih.mpr ⟨part, last, (List.forall_mem_cons.mp all).2, rfl⟩
          exact ⟨_, Or.inl ⟨x, member, rfl⟩, left⟩
    · simp only [longest, accept, Bool.false_eq_true, if_false, List.not_mem_nil, false_and, exists_false, false_iff]
      rintro ⟨part, nonempty, all, split⟩
      obtain ⟨d, part, rfl⟩ := List.exists_cons_of_ne_nil nonempty
      obtain ⟨rfl, -⟩ := List.cons.inj split
      exact accept (all c List.mem_cons_self)

@[simp] theorem seq_nil : seq [] = empty := rfl

@[simp] theorem seq_cons {e : Expr} {es : List Expr} : seq (e :: es) = cat e (seq es) := rfl

theorem runs_append (es es' : List Expr) (s : List Char) : runs (seq (es ++ es')) s = runs (cat (seq es) (seq es')) s := by
  induction es generalizing s with
  | nil => simp [runs]
  | cons e es ih =>
    have later (x : Run) : runs (seq (es ++ es')) x.rest = runs (cat (seq es) (seq es')) x.rest := ih x.rest
    simp only [List.cons_append, seq_cons, runs, later, List.map_flatMap, List.flatMap_map, List.map_map,
      List.flatMap_assoc]
    simp [Function.comp_def, List.append_assoc]

theorem reads_append {es es' : List Expr} :
    Reads (seq (es ++ es')) s rest ↔ ∃ middle, Reads (seq es) s middle ∧ Reads (seq es') middle rest := by
  rw [Reads, runs_append]
  exact reads_cat

@[simp] theorem reads_spelled {classes : List CharClass} :
    Reads (seq (spelled classes)) s rest ↔
      ∃ text, List.Forall₂ (fun accepted c => CharClass.accepts accepted c = true) classes text ∧ s = text ++ rest := by
  unfold spelled
  induction classes generalizing s with
  | nil => simp
  | cons accepted classes ih =>
    simp only [List.map_cons, seq_cons, reads_cat, reads_one, ih, List.forall₂_cons_left_iff]
    constructor
    · rintro ⟨_, ⟨c, accept, rfl⟩, text, all, rfl⟩
      exact ⟨c :: text, ⟨c, text, accept, all, rfl⟩, rfl⟩
    · rintro ⟨_, ⟨c, text, accept, all, rfl⟩, rfl⟩
      exact ⟨text ++ rest, ⟨c, accept, rfl⟩, text, all, rfl⟩

theorem spells_only {text text' : List Char} :
    List.Forall₂ (fun accepted c => CharClass.accepts accepted c = true) (text.map .only) text' ↔ text' = text := by
  have same : (fun c d : Char => CharClass.accepts (.only c) d = true) = (· = ·) := by
    funext c d
    exact propext (beq_iff_eq.trans eq_comm)
  rw [List.forall₂_map_left_iff, same, List.forall₂_eq_eq_eq]
  exact eq_comm

@[simp] theorem reads_chars {text : List Char} : Reads (seq (chars text)) s rest ↔ s = text ++ rest := by
  simp only [chars, reads_spelled, spells_only, exists_eq_left]

theorem findSubmatch_isSome {e : Expr} :
    (findSubmatch e s).isSome = true ↔ ∃ before after rest, s = before ++ after ∧ Reads e after rest := by
  induction s with
  | nil =>
    unfold findSubmatch
    cases found : runs e [] with
    | nil =>
      simp only [Option.isSome_none, Bool.false_eq_true, false_iff]
      rintro ⟨before, after, rest, split, x, member, -⟩
      obtain ⟨rfl, rfl⟩ := List.append_eq_nil_iff.mp split.symm
      rw [found] at member
      cases member
    | cons x xs =>
      refine ⟨fun _ => ⟨[], [], x.rest, rfl, x, ?_, rfl⟩, fun _ => rfl⟩
      rw [found]
      exact List.mem_cons_self
  | cons c s ih =>
    unfold findSubmatch
    cases found : runs e (c :: s) with
    | nil =>
      refine Iff.trans ih ⟨?_, ?_⟩
      · rintro ⟨before, after, rest, rfl, reads⟩
        exact ⟨c :: before, after, rest, rfl, reads⟩
      · rintro ⟨before, after, rest, split, reads⟩
        cases before with
        | nil =>
          obtain ⟨x, member, -⟩ := reads
          rw [← List.nil_append after, ← split, found] at member
          cases member
        | cons d before => exact ⟨before, after, rest, (List.cons.inj split).2, reads⟩
    | cons x xs =>
      refine ⟨fun _ => ⟨[], c :: s, x.rest, rfl, x, ?_, rfl⟩, fun _ => rfl⟩
      rw [found]
      exact List.mem_cons_self

end Reads

section First

open Submatch.Expr

/-- The way that is tried first. -/
def first (e : Expr) (s : List Char) : Option Run := (runs e s).head?

variable {s : List Char}

theorem exists_first {e : Expr} {rest : List Char} (reads : Reads e s rest) : ∃ x, first e s = some x := by
  obtain ⟨x, member, -⟩ := reads
  exact Option.isSome_iff_exists.mp (List.isSome_head?.mpr (List.ne_nil_of_mem member))

theorem findSubmatch_first {e : Expr} {x : Run} (found : first e s = some x) :
    findSubmatch e s = some (x.consumed :: x.captures) := by
  obtain ⟨xs, split⟩ := List.head?_eq_some_iff.mp found
  unfold findSubmatch
  rw [split]

theorem first_cat {a b : Expr} {x y : Run} (start : first a s = some x) (last : first b x.rest = some y) :
    first (cat a b) s = some ⟨x.consumed ++ y.consumed, y.rest, x.captures ++ y.captures⟩ := by
  obtain ⟨xs, firsts⟩ := List.head?_eq_some_iff.mp start
  obtain ⟨ys, seconds⟩ := List.head?_eq_some_iff.mp last
  simp [first, runs, firsts, seconds]

theorem first_append {es es' : List Expr} {x y : Run} (start : first (seq es) s = some x)
    (last : first (seq es') x.rest = some y) :
    first (seq (es ++ es')) s = some ⟨x.consumed ++ y.consumed, y.rest, x.captures ++ y.captures⟩ := by
  rw [first, runs_append]
  exact first_cat start last

theorem first_spelled {classes : List CharClass} {text : List Char}
    (all : List.Forall₂ (fun accepted c => CharClass.accepts accepted c = true) classes text) :
    first (seq (spelled classes)) (text ++ s) = some ⟨text, s, []⟩ := by
  induction all with
  | nil => rfl
  | @cons accepted c classes text accept _ ih =>
    have start : first (one accepted) (c :: (text ++ s)) = some ⟨[c], text ++ s, []⟩ := by simp [first, runs, accept]
    exact first_cat start ih

theorem first_chars {text : List Char} : first (seq (chars text)) (text ++ s) = some ⟨text, s, []⟩ :=
  first_spelled (spells_only.mpr rfl)

theorem longest_head {accepted : CharClass} {part rest : List Char} (nonempty : part ≠ [])
    (all : ∀ c ∈ part, accepted.accepts c = true) (stop : ∀ c ∈ rest.head?, accepted.accepts c = false) :
    (longest accepted (part ++ rest)).head? = some ⟨part, rest, []⟩ := by
  induction part with
  | nil => exact absurd rfl nonempty
  | cons c part ih =>
    obtain ⟨accept, others⟩ := List.forall_mem_cons.mp all
    rw [List.cons_append, longest, if_pos accept]
    cases part with
    | nil =>
      have stopped : longest accepted rest = [] := by
        cases rest with
        | nil => rfl
        | cons d rest => rw [longest, stop d rfl, if_neg Bool.false_ne_true]
      rw [List.nil_append, stopped]
      rfl
    | cons d part =>
      have later := ih (List.cons_ne_nil _ _) others
      rw [List.head?_append, List.head?_map, later]
      rfl

/-- A group that repeats a class takes all that it can. -/
theorem first_part {accepted : CharClass} {part rest : List Char} (nonempty : part ≠ [])
    (all : ∀ c ∈ part, accepted.accepts c = true) (stop : ∀ c ∈ rest.head?, accepted.accepts c = false) :
    first (group (seq [more accepted])) (part ++ rest) = some ⟨part, rest, [part]⟩ := by
  have start : first (more accepted) (part ++ rest) = some ⟨part, rest, []⟩ := longest_head nonempty all stop
  have whole := first_cat start (show first (seq []) rest = some ⟨[], rest, []⟩ from rfl)
  unfold first at whole ⊢
  rw [seq_cons, runs, List.head?_map, whole]
  simp

end First

section Parse

open Submatch.Expr

def repeated : Expr → Bool
  | .more _ | .maybe _ => true
  | _ => false

-- The lists are those of the groups that are still open, each with its last part first.
def parseFrom : List Char → List (List Expr) → List Expr → Except String Expr
  | [], [], current => .ok (seq current.reverse)
  | [], _ :: _, _ => .error "missing closing )"
  | '(' :: rest, outer, current => parseFrom rest (current :: outer) []
  | ')' :: rest, current' :: outer, current => parseFrom rest outer (group (seq current.reverse) :: current')
  | ')' :: _, [], _ => .error "unexpected )"
  | '?' :: rest, outer, e :: current =>
    if repeated e then .error "unsupported" else parseFrom rest outer (maybe e :: current)
  | '+' :: rest, outer, one accepted :: current => parseFrom rest outer (more accepted :: current)
  | '.' :: rest, outer, current => parseFrom rest outer (one .line :: current)
  | '$' :: rest, outer, current => parseFrom rest outer (atEnd :: current)
  | '\\' :: c :: rest, outer, current =>
    if c ∈ Regexp.special then parseFrom rest outer (one (.only c) :: current) else .error "unsupported"
  | '[' :: '^' :: c :: ']' :: rest, outer, current =>
    if c ∈ Regexp.special then .error "unsupported" else parseFrom rest outer (one (.except c) :: current)
  | c :: rest, outer, current =>
    if c ∈ Regexp.special then .error "unsupported" else parseFrom rest outer (one (.only c) :: current)

def parse (text : List Char) : Except String Expr := parseFrom text [] []

variable {rest : List Char} {outer : List (List Expr)} {current : List Expr}

theorem parse_char {c : Char} (plain : c ∉ Regexp.special) :
    parseFrom (c :: rest) outer current = parseFrom rest outer (one (.only c) :: current) := by
  rw [parseFrom, if_neg plain]
  all_goals
    intros
    subst c
    exact plain (by decide)

theorem parse_chars {text : List Char} (plain : ∀ c ∈ text, c ∉ Regexp.special) :
    parseFrom (text ++ rest) outer current = parseFrom rest outer ((chars text).reverse ++ current) := by
  induction text generalizing current with
  | nil => rfl
  | cons c text ih =>
    obtain ⟨first, others⟩ := List.forall_mem_cons.mp plain
    rw [List.cons_append, parse_char first, ih others]
    simp [chars, spelled]

end Parse

end Submatch
