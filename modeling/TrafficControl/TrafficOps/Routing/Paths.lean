import TrafficControl.TrafficOps.Routing.RouteMap

set_option autoImplicit false

-- Paths as the table of routes writes them, and the expressions that they are compiled to.
namespace Routing

open DoubleText Submatch Submatch.Expr

def Plain (c : Char) : Prop := c ≠ '/' ∧ c ∉ Regexp.special

instance : DecidablePred Plain := fun _ => inferInstanceAs (Decidable (_ ∧ _))

theorem plain_of_all {text : List Char} (all : (text.all fun c => decide (Plain c)) = true) : ∀ c ∈ text, Plain c :=
  fun c member => of_decide_eq_true (List.all_eq_true.mp all c member)

abbrev PlainText := {text : List Char // ∀ c ∈ text, Plain c}

abbrev ParamName := {name : List Char // '\x7b' ∉ name ∧ '\x7d' ∉ name}

inductive Segment where
  | literal (text : PlainText)
  | param (name : ParamName)

-- `/?`, an extension such as `(\.json)?`, and `$`
structure Ending where
  slash : Bool
  extension : Option PlainText

structure WrittenPath where
  first : Segment
  rest : List Segment
  ending : Option Ending

namespace Segment

def text : Segment → List Char
  | literal text => text.1
  | param name => '\x7b' :: (name.1 ++ ['\x7d'])

def name : Segment → Option (List Char)
  | literal _ => none
  | param name => some name.1

-- The text with the group for the parameter.
def replaced : Segment → List Char
  | literal text => text.1
  | param _ => segmentRegex

def items : Segment → List Expr
  | literal text => chars text.1
  | param _ => [group (seq [more (.except '/')])]

theorem text_literal (text : PlainText) : (literal text).text = text.1 := rfl

theorem text_param (name : ParamName) : (param name).text = '\x7b' :: (name.1 ++ ['\x7d']) := rfl

end Segment

def names (segments : List Segment) : List (List Char) := segments.filterMap Segment.name

@[simp] theorem names_nil : names [] = [] := rfl

@[simp] theorem names_literal (text : PlainText) (segments : List Segment) :
    names (.literal text :: segments) = names segments := rfl

@[simp] theorem names_param (name : ParamName) (segments : List Segment) :
    names (.param name :: segments) = name.1 :: names segments := rfl

namespace Ending

def text (ending : Ending) : List Char :=
  (if ending.slash then ['/', '?'] else []) ++
    (ending.extension.elim [] fun e => '(' :: '\\' :: '.' :: (e.1 ++ [')', '?'])) ++ ['$']

def items (ending : Ending) : List Expr :=
  (if ending.slash then [maybe (one (.only '/'))] else []) ++
    (ending.extension.elim [] fun e => [maybe (group (seq (chars ('.' :: e.1))))]) ++ [atEnd]

end Ending

namespace WrittenPath

variable (path : WrittenPath)

def segments : List Segment := path.first :: path.rest

def endingText : List Char := path.ending.elim [] Ending.text

def endingItems : List Expr := path.ending.elim [] Ending.items

def text : List Char := path.first.text ++ path.rest.flatMap (fun segment => '/' :: segment.text) ++ path.endingText

end WrittenPath

-- The point of a version stands for any character of a line.
def versionClasses (version : Rat) : List CharClass :=
  (formatFloat version).map fun c => if c = '.' then .line else .only c

def segmentItems (segments : List Segment) : List Expr :=
  segments.flatMap fun segment => one (.only '/') :: segment.items

def routeItems (version : Rat) (path : WrittenPath) : List Expr :=
  chars (routePrefix ++ ['/']) ++ (spelled (versionClasses version) ++ (segmentItems path.segments ++ path.endingItems))

section Replace

def Braceless (s : List Char) : Prop := '\x7b' ∉ s ∧ '\x7d' ∉ s

theorem Braceless.append {s t : List Char} (first : Braceless s) (last : Braceless t) : Braceless (s ++ t) :=
  ⟨fun member => (List.mem_append.mp member).elim first.1 last.1,
    fun member => (List.mem_append.mp member).elim first.2 last.2⟩

theorem braceless_plain {text : List Char} (plain : ∀ c ∈ text, Plain c) : Braceless text :=
  ⟨fun member => (plain _ member).2 (by decide), fun member => (plain _ member).2 (by decide)⟩

theorem braceless_formatFloat (version : Rat) : Braceless (formatFloat version) := by
  constructor <;>
  · intro member
    rcases formatFloat_numeral member with digit | point | sign
    · exact absurd digit (by decide)
    · exact absurd point (by decide)
    · exact absurd sign (by decide)

theorem braceless_endingText (path : WrittenPath) : Braceless path.endingText := by
  unfold WrittenPath.endingText
  cases path.ending with
  | none => exact ⟨List.not_mem_nil, List.not_mem_nil⟩
  | some ending =>
    have slash : Braceless (if ending.slash then ['/', '?'] else []) := by
      split <;> constructor <;> decide
    have extension : Braceless (ending.extension.elim [] fun e => '(' :: '\\' :: '.' :: (e.1 ++ [')', '?'])) := by
      cases ending.extension with
      | none => exact ⟨List.not_mem_nil, List.not_mem_nil⟩
      | some e =>
        have quoted : Braceless ['(', '\\', '.'] := by constructor <;> decide
        exact quoted.append ((braceless_plain e.2).append (by constructor <;> decide))
    exact (slash.append extension).append (by constructor <;> decide)

theorem idxOf?_first {c : Char} {before after : List Char} (absent : c ∉ before) :
    (before ++ c :: after).idxOf? c = some before.length := by
  induction before with
  | nil => simp [List.idxOf?_cons]
  | cons d before ih =>
    have other : d ≠ c := fun same => absent (same ▸ List.mem_cons_self)
    have later : c ∉ before := fun member => absent (List.mem_cons_of_mem d member)
    simp [List.idxOf?_cons, other, ih later]

theorem idxOf?_absent {c : Char} {s : List Char} (absent : c ∉ s) : s.idxOf? c = none := List.idxOf?_eq_none_iff.mpr absent

theorem replaceParams_clear {route : List Char} {params : List (List Char)} {steps : Nat} (clear : '\x7b' ∉ route) :
    replaceParams (steps + 1) route params = .ok (route, params) := by
  rw [replaceParams, idxOf?_absent clear]

theorem replaceParams_param {before name after : List Char} {params : List (List Char)} {steps : Nat} (nonempty : before ≠ [])
    (clear : Braceless before) (name_clear : '\x7d' ∉ name) :
    replaceParams (steps + 1) (before ++ '\x7b' :: (name ++ '\x7d' :: after)) params =
      replaceParams steps (before ++ segmentRegex ++ after) (params ++ [name]) := by
  have closed : before ++ '\x7b' :: (name ++ '\x7d' :: after) = before ++ '\x7b' :: name ++ '\x7d' :: after := by simp
  have absent : '\x7d' ∉ before ++ '\x7b' :: name := by
    simp only [List.mem_append, List.mem_cons, not_or]
    exact ⟨clear.2, by decide, name_clear⟩
  have opens : (before ++ '\x7b' :: (name ++ '\x7d' :: after)).idxOf? '\x7b' = some before.length := idxOf?_first clear.1
  have closes : (before ++ '\x7b' :: name ++ '\x7d' :: after).idxOf? '\x7d' = some (before ++ '\x7b' :: name).length :=
    idxOf?_first absent
  obtain ⟨length, positive⟩ := Nat.exists_eq_add_one_of_ne_zero (fun zero => nonempty (List.length_eq_zero_iff.mp zero))
  have taken : (before ++ '\x7b' :: name).length = length + 1 + 1 + name.length := by
    rw [List.length_append, List.length_cons, positive]
    omega
  have dropped : (before ++ '\x7b' :: name).drop (length + 1 + 1) = name := by
    rw [← positive, List.drop_append]
    simp
  rw [replaceParams, opens, positive]
  dsimp only
  rw [closed, closes, taken]
  dsimp only
  have gone : (before ++ '\x7b' :: name ++ '\x7d' :: after).drop ((before ++ '\x7b' :: name).length + 1) = after := by
    rw [← List.drop_drop, List.drop_left]
    rfl
  rw [if_neg (by omega), ← taken, List.take_left, dropped, gone, ← positive, List.append_assoc before, List.take_left]

/-- The groups take the place of the parameters. -/
theorem replaceParams_written (segments : List Segment) {done tail : List Char} (params : List (List Char)) (steps : Nat)
    (nonempty : done ≠ []) (clear : Braceless done) (clear' : Braceless tail) (enough : (names segments).length < steps) :
    replaceParams steps (done ++ segments.flatMap (fun segment => '/' :: segment.text) ++ tail) params =
      .ok (done ++ segments.flatMap (fun segment => '/' :: segment.replaced) ++ tail, params ++ names segments) := by
  have slash : Braceless ['/'] := by constructor <;> decide
  obtain ⟨steps, rfl⟩ := Nat.exists_eq_add_one_of_ne_zero (Nat.ne_of_gt (Nat.zero_lt_of_lt enough))
  induction segments generalizing done params steps with
  | nil => simpa using replaceParams_clear (clear.append clear').1
  | cons segment segments ih =>
    rw [List.flatMap_cons, List.flatMap_cons]
    cases segment with
    | literal text =>
      have clear_text : Braceless (done ++ '/' :: text.1) := clear.append (slash.append (braceless_plain text.2))
      have rest := ih params (List.append_ne_nil_of_left_ne_nil nonempty _) clear_text steps enough
      simpa only [List.append_assoc, List.cons_append, Segment.text, Segment.replaced, names_literal] using rest
    | param name =>
      rw [names_param, List.length_cons] at enough
      obtain ⟨steps, rfl⟩ := Nat.exists_eq_add_one_of_ne_zero (n := steps) (by omega)
      have regex : Braceless (done ++ '/' :: segmentRegex) := clear.append (slash.append (by constructor <;> decide))
      have rest := ih (params ++ [name.1]) (List.append_ne_nil_of_left_ne_nil nonempty _) regex steps (by omega)
      have step : replaceParams (steps + 1 + 1) (done ++ ['/'] ++ '\x7b' :: (name.1 ++ '\x7d' ::
            (segments.flatMap (fun segment => '/' :: segment.text) ++ tail))) params =
          replaceParams (steps + 1) (done ++ ['/'] ++ segmentRegex ++
            (segments.flatMap (fun segment => '/' :: segment.text) ++ tail)) (params ++ [name.1]) :=
        replaceParams_param (List.append_ne_nil_of_left_ne_nil nonempty ['/']) (clear.append slash) name.2.2
      simp only [List.append_assoc, List.cons_append, List.nil_append, Segment.text, Segment.replaced,
        names_param] at step rest ⊢
      exact step.trans rest

end Replace

section Parse

variable {rest : List Char} {outer : List (List Expr)} {current : List Expr}

theorem parse_version (version : Rat) :
    parseFrom (formatFloat version ++ rest) outer current =
      parseFrom rest outer ((spelled (versionClasses version)).reverse ++ current) := by
  unfold versionClasses
  have numeral : ∀ c ∈ formatFloat version, NumeralChar c := fun _ => formatFloat_numeral
  generalize formatFloat version = text at numeral ⊢
  induction text generalizing current with
  | nil => rfl
  | cons c text ih =>
    obtain ⟨first, others⟩ := List.forall_mem_cons.mp numeral
    rw [List.cons_append]
    by_cases point : c = '.'
    · subst point
      rw [parseFrom, ih others]
      simp [spelled]
    · have plain : c ∉ Regexp.special := by
        rcases first with digit | same | rfl
        · intro member
          have digitless : (Regexp.special.all fun c => !c.isDigit) = true := by decide
          have not := List.all_eq_true.mp digitless c member
          rw [digit] at not
          cases not
        · exact absurd same point
        · decide
      rw [parse_char plain, ih others]
      simp [spelled, point]

theorem parse_segment (segment : Segment) :
    parseFrom (segment.replaced ++ rest) outer current = parseFrom rest outer (segment.items.reverse ++ current) := by
  cases segment with
  | literal text => exact parse_chars fun c member => (text.2 c member).2
  | param name => rfl

theorem parse_segments (segments : List Segment) :
    parseFrom (segments.flatMap (fun segment => '/' :: segment.replaced) ++ rest) outer current =
      parseFrom rest outer ((segmentItems segments).reverse ++ current) := by
  induction segments generalizing current with
  | nil => rfl
  | cons segment segments ih =>
    rw [List.flatMap_cons, List.cons_append, List.cons_append, List.append_assoc, parse_char (by decide), parse_segment, ih]
    simp [segmentItems]

theorem parse_endingText (path : WrittenPath) :
    parseFrom path.endingText [] current = .ok (seq (current.reverse ++ path.endingItems)) := by
  unfold WrittenPath.endingText WrittenPath.endingItems
  cases path.ending with
  | none => simp [parseFrom]
  | some ending =>
    have last {current : List Expr} : parseFrom ['$'] [] current = .ok (seq (current.reverse ++ [atEnd])) := by
      simp [parseFrom]
    have extension {current : List Expr} :
        parseFrom ((ending.extension.elim [] fun e => '(' :: '\\' :: '.' :: (e.1 ++ [')', '?'])) ++ ['$']) [] current =
          .ok (seq (current.reverse ++ ((ending.extension.elim [] fun e =>
            [maybe (group (seq (chars ('.' :: e.1))))]) ++ [atEnd]))) := by
      cases ending.extension with
      | none => exact last
      | some e =>
        have opened : parseFrom (('(' :: '\\' :: '.' :: (e.1 ++ [')', '?'])) ++ ['$']) [] current =
            parseFrom (e.1 ++ [')', '?', '$']) [current] [one (.only '.')] := by
          simp [parseFrom, Regexp.special]
        have closed {inner : List Expr} : parseFrom [')', '?', '$'] [current] inner =
            parseFrom ['$'] [] (maybe (group (seq inner.reverse)) :: current) := rfl
        rw [Option.elim_some, opened, parse_chars fun c member => (e.2 c member).2, closed, last]
        simp [chars, spelled]
    unfold Ending.text Ending.items
    rw [Option.elim_some, Option.elim_some, List.append_assoc]
    cases ending.slash with
    | false => exact extension
    | true =>
      have slash : parseFrom (['/', '?'] ++ ((ending.extension.elim [] fun e => '(' :: '\\' :: '.' :: (e.1 ++ [')', '?'])) ++ ['$']))
          [] current = parseFrom ((ending.extension.elim [] fun e => '(' :: '\\' :: '.' :: (e.1 ++ [')', '?'])) ++ ['$'])
            [] (maybe (one (.only '/')) :: current) := rfl
      rw [if_pos rfl, if_pos rfl, slash, extension]
      simp

end Parse

section Compile

variable {H : Type}

theorem count_text (segments : List Segment) (path : WrittenPath) :
    (segments.flatMap (fun segment => '/' :: segment.text) ++ path.endingText).count '\x7b' = (names segments).length := by
  have ending := List.count_eq_zero.mpr (braceless_endingText path).1
  induction segments with
  | nil => simpa using ending
  | cons segment segments ih =>
    rw [List.count_append] at ih
    cases segment with
    | literal text =>
      have clear := List.count_eq_zero.mpr (braceless_plain text.2).1
      simp only [List.flatMap_cons, List.count_append, List.count_cons, Segment.text_literal, clear, names_literal]
      simpa using ih
    | param name =>
      have clear := List.count_eq_zero.mpr name.2.1
      simp only [List.flatMap_cons, List.count_append, List.count_cons, Segment.text_param, clear, names_param, List.length_cons]
      simp
      omega

/-- A route of the table compiles, under every version. -/
theorem compileRoute_written (version : Rat) (path : WrittenPath) (h : H) :
    compileRoute ⟨routePrefix ++ '/' :: formatFloat version ++ '/' :: path.text, h⟩ =
      .ok ⟨h, seq (routeItems version path), names path.segments⟩ := by
  have split : routePrefix ++ '/' :: formatFloat version ++ '/' :: path.text =
      (routePrefix ++ '/' :: formatFloat version) ++ path.segments.flatMap (fun segment => '/' :: segment.text) ++
        path.endingText := by
    simp [WrittenPath.text, WrittenPath.segments]
  have slash : Braceless ['/'] := by constructor <;> decide
  have start : Braceless (routePrefix ++ '/' :: formatFloat version) :=
    Braceless.append (by constructor <;> decide) (slash.append (braceless_formatFloat version))
  have count : (routePrefix ++ '/' :: formatFloat version ++ '/' :: path.text).count '\x7b' = (names path.segments).length := by
    rw [split, List.append_assoc, List.count_append, List.count_eq_zero.mpr start.1, Nat.zero_add, count_text]
  have replaced := replaceParams_written path.segments [] ((names path.segments).length + 1) (by simp [routePrefix]) start
    (braceless_endingText path) (Nat.lt_succ_self _)
  have parsed : parse (routePrefix ++ '/' :: formatFloat version ++
      path.segments.flatMap (fun segment => '/' :: segment.replaced) ++ path.endingText) = .ok (seq (routeItems version path)) := by
    have all : ((routePrefix ++ ['/']).all fun c => decide (c ∉ Regexp.special)) = true := by decide
    have plain : ∀ c ∈ routePrefix ++ ['/'], c ∉ Regexp.special := fun c member =>
      of_decide_eq_true (List.all_eq_true.mp all c member)
    have front : routePrefix ++ '/' :: formatFloat version ++
        path.segments.flatMap (fun segment => '/' :: segment.replaced) ++ path.endingText =
          (routePrefix ++ ['/']) ++ (formatFloat version ++
            (path.segments.flatMap (fun segment => '/' :: segment.replaced) ++ path.endingText)) := by simp
    rw [front, parse, parse_chars plain, parse_version, parse_segments, parse_endingText]
    simp [routeItems]
  unfold compileRoute
  rw [count, split, replaced]
  simp only [bind, Except.bind]
  rw [parsed]
  rfl

end Compile

end Routing
