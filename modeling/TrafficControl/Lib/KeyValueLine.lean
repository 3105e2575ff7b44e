import Mathlib.Data.List.TakeWhile

set_option autoImplicit false

-- Lines of items `key=value`, each after a blank, with the value in double quotes or as it is.
namespace KeyValueLine

structure Item where
  key : List Char
  value : List Char
  quoted : Bool

namespace Item

def text (item : Item) : List Char := item.key ++ '=' :: if item.quoted then '"' :: item.value ++ ['"'] else item.value

/-- The end of the value is where a reader takes it to be. -/
def Clean (item : Item) : Prop :=
  if item.quoted then '"' ∉ item.value else ' ' ∉ item.value ∧ item.value.head? ≠ some '"'

end Item

def readValue (s : List Char) : Option (List Char × List Char) :=
  if s.head? = some '"' then
    let s := s.tail
    if '"' ∈ s then some (s.takeWhile (· ≠ '"'), (s.dropWhile (· ≠ '"')).tail) else none
  else some (s.takeWhile (· ≠ ' '), s.dropWhile (· ≠ ' '))

def readItem (s : List Char) : Option ((List Char × List Char) × List Char) :=
  if '=' ∈ s then
    (readValue (s.dropWhile (· ≠ '=')).tail).map fun (value, rest) => ((s.takeWhile (· ≠ '='), value), rest)
  else none

def readItems : Nat → List Char → Option (List (List Char × List Char))
  | 0, s => if s = [] ∨ s = [' '] then some [] else none
  | fuel + 1, s =>
    if s = [] ∨ s = [' '] then some []
    else if s.head? ≠ some ' ' then none
    else (readItem s.tail).bind fun (field, rest) => (readItems fuel rest).map (field :: ·)

section Reading

variable {c : Char} {s rest : List Char}

theorem takeWhile_stop (absent : c ∉ s) : (s ++ c :: rest).takeWhile (· ≠ c) = s ∧ (s ++ c :: rest).dropWhile (· ≠ c) = c :: rest := by
  have others : ∀ x ∈ s, decide (x ≠ c) = true := fun x member => decide_eq_true fun same => absent (same ▸ member)
  constructor
  · rw [List.takeWhile_append_of_pos others, List.takeWhile_cons_of_neg (by simp), List.append_nil]
  · rw [List.dropWhile_append_of_pos others, List.dropWhile_cons_of_neg (by simp)]

theorem notMem_takeWhile (c : Char) (s : List Char) : c ∉ s.takeWhile (· ≠ c) := fun member => by
  have other := List.mem_takeWhile_imp member
  simp at other

theorem readValue_quoted {value : List Char} (absent : '"' ∉ value) : readValue ('"' :: value ++ '"' :: rest) = some (value, rest) := by
  obtain ⟨taken, dropped⟩ := @takeWhile_stop '"' value rest absent
  unfold readValue
  rw [List.cons_append, List.head?_cons, if_pos rfl]
  dsimp only
  rw [List.tail_cons, if_pos (List.mem_append_right _ List.mem_cons_self), taken, dropped, List.tail_cons]

theorem readValue_token {value : List Char} (absent : ' ' ∉ value) (bare : (value ++ rest).head? ≠ some '"')
    (ends : rest = [] ∨ rest.head? = some ' ') : readValue (value ++ rest) = some (value, rest) := by
  unfold readValue
  rw [if_neg bare]
  cases rest with
  | nil =>
    have others : ∀ x ∈ value, decide (x ≠ ' ') = true := fun x member => decide_eq_true fun same => absent (same ▸ member)
    rw [List.append_nil, List.takeWhile_eq_self_iff.mpr others, List.dropWhile_eq_nil_iff.mpr others]
  | cons c rest =>
    have blank : c = ' ' := Option.some.inj (ends.resolve_left (List.cons_ne_nil c rest))
    obtain ⟨taken, dropped⟩ := @takeWhile_stop ' ' value rest absent
    rw [blank, taken, dropped]

/-- What a value that is read does not hold depends on how the text starts. -/
theorem readValue_value {value : List Char} (read : readValue s = some (value, rest)) :
    (s.head? = some '"' → '"' ∉ value) ∧ (s.head? ≠ some '"' → ' ' ∉ value) := by
  unfold readValue at read
  split_ifs at read with quote
  · dsimp only at read
    split_ifs at read
    cases read
    exact ⟨fun _ => notMem_takeWhile _ _, fun bare => absurd quote bare⟩
  · cases read
    exact ⟨fun quote' => absurd quote' quote, fun _ => notMem_takeWhile _ _⟩

variable {item : Item}

theorem readItem_text (key : '=' ∉ item.key) :
    readItem (item.text ++ rest) = (readValue ((if item.quoted then '"' :: item.value ++ ['"'] else item.value) ++ rest)).map
      fun (value, rest) => ((item.key, value), rest) := by
  unfold readItem Item.text
  rw [List.append_assoc, List.cons_append]
  obtain ⟨taken, dropped⟩ := @takeWhile_stop '=' item.key ((if item.quoted then '"' :: item.value ++ ['"'] else item.value) ++ rest) key
  rw [if_pos (List.mem_append_right _ List.mem_cons_self), taken, dropped, List.tail_cons]

/-- An item is read back, and what comes after it is left. -/
theorem readItem_clean (key : '=' ∉ item.key) (clean : item.Clean) (ends : rest = [] ∨ rest.head? = some ' ') :
    readItem (item.text ++ rest) = some ((item.key, item.value), rest) := by
  rw [readItem_text key]
  unfold Item.Clean at clean
  split_ifs at clean ⊢ with quoted
  · rw [List.append_assoc, List.singleton_append, readValue_quoted clean]
    rfl
  · have bare : (item.value ++ rest).head? ≠ some '"' := by
      cases value : item.value with
      | nil =>
        rcases ends with rfl | blank
        · decide
        · rw [List.nil_append, blank]
          decide
      | cons c others =>
        rw [value] at clean
        exact clean.2
    rw [readValue_token clean.1 bare ends]
    rfl

/-- An item that is read back is clean. -/
theorem clean_of_readItem (key : '=' ∉ item.key) {rest' : List Char} (read : readItem (item.text ++ rest) = some ((item.key, item.value), rest')) :
    item.Clean := by
  rw [readItem_text key] at read
  obtain ⟨⟨value, left⟩, readBack, same⟩ := Option.map_eq_some_iff.mp read
  have value_eq : value = item.value := congrArg (·.1.2) same
  rw [value_eq] at readBack
  unfold Item.Clean
  split_ifs at readBack ⊢
  · exact (readValue_value readBack).1 rfl
  · cases text : item.value with
    | nil => exact ⟨List.not_mem_nil, Option.some_ne_none _ |>.symm⟩
    | cons c others =>
      rw [text] at readBack
      have bare : (c :: others).head? ≠ some '"' := fun quote => (readValue_value readBack).1 quote (List.mem_of_mem_head? quote)
      exact ⟨(readValue_value readBack).2 bare, bare⟩

end Reading

theorem length_le_line (items : List Item) : items.length ≤ (items.flatMap fun item => ' ' :: item.text).length := by
  induction items with
  | nil => exact Nat.le_refl 0
  | cons item items ih =>
    rw [List.flatMap_cons, List.length_append, List.length_cons, List.length_cons]
    omega

/-- A line is read back exactly when all of its values are clean. -/
theorem readItems_iff {items : List Item} (keys : ∀ item ∈ items, '=' ∉ item.key) {trail : List Char} (blank : trail = [] ∨ trail = [' '])
    {fuel : Nat} (enough : items.length ≤ fuel) :
    readItems fuel (items.flatMap (fun item => ' ' :: item.text) ++ trail) = some (items.map fun item => (item.key, item.value)) ↔
      ∀ item ∈ items, item.Clean := by
  induction items generalizing fuel with
  | nil =>
    refine iff_of_true ?_ fun _ member => absurd member List.not_mem_nil
    cases fuel <;> exact if_pos blank
  | cons item items ih =>
    cases fuel with
    | zero => exact absurd enough (Nat.not_succ_le_zero _)
    | succ fuel =>
      have key := keys item List.mem_cons_self
      have more := @ih (fun item member => keys item (List.mem_cons_of_mem _ member)) fuel (Nat.le_of_succ_le_succ enough)
      have ends : items.flatMap (fun item => ' ' :: item.text) ++ trail = [] ∨
          (items.flatMap (fun item => ' ' :: item.text) ++ trail).head? = some ' ' := by
        cases items with
        | nil => exact blank.imp id fun one => by rw [one]; rfl
        | cons _ _ => exact Or.inr rfl
      rw [List.flatMap_cons, List.cons_append, List.cons_append, List.append_assoc, List.forall_mem_cons]
      generalize items.flatMap (fun item => ' ' :: item.text) ++ trail = rest at more ends
      have long : ¬(' ' :: (item.text ++ rest) = [] ∨ ' ' :: (item.text ++ rest) = [' ']) := by
        unfold Item.text
        simp
      rw [readItems, if_neg long, if_neg (by simp), List.tail_cons, List.map_cons]
      constructor
      · intro read
        obtain ⟨⟨field, left⟩, first, others⟩ := Option.bind_eq_some_iff.mp read
        obtain ⟨fields, later, same⟩ := Option.map_eq_some_iff.mp others
        obtain ⟨sameField, sameFields⟩ := List.cons_eq_cons.mp same
        rw [sameField] at first
        have clean := clean_of_readItem key first
        have left_eq : left = rest := congrArg (·.2) (Option.some.inj (first.symm.trans (readItem_clean key clean ends)))
        rw [left_eq, sameFields] at later
        exact ⟨clean, more.mp later⟩
      · rintro ⟨clean, others⟩
        rw [readItem_clean key clean ends, Option.bind_some]
        dsimp only
        rw [more.mpr others, Option.map_some]

end KeyValueLine
