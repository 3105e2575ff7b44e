import TrafficControl.Lib.CStrings
import Mathlib.Algebra.BigOperators.Group.List.Basic

set_option autoImplicit false

-- JSON texts, whose characters are the bytes of their encoding: their tokens, and their values.
namespace JsonText

inductive Token where
  | lbrace
  | rbrace
  | lbracket
  | rbracket
  | colon
  | comma
  | string (text : List Char)
  | number (text : List Char)
  | word (text : List Char)
deriving DecidableEq

/-- A part of a string: a character that stands for itself, or the code unit of an escape. -/
inductive Piece where
  | char (c : Char)
  | unit (u : BitVec 16)

-- The bytes of a code point.
def utf8 (n : Nat) : List Char :=
  if n < 0x80 then [Char.ofNat n]
  else if n < 0x800 then [Char.ofNat (0xc0 + n / 0x40), Char.ofNat (0x80 + n % 0x40)]
  else if n < 0x10000 then [Char.ofNat (0xe0 + n / 0x1000), Char.ofNat (0x80 + n / 0x40 % 0x40), Char.ofNat (0x80 + n % 0x40)]
  else [Char.ofNat (0xf0 + n / 0x40000), Char.ofNat (0x80 + n / 0x1000 % 0x40), Char.ofNat (0x80 + n / 0x40 % 0x40), Char.ofNat (0x80 + n % 0x40)]

def IsUtf8 (s : List Char) : Prop := ∃ text : List Char, s = text.flatMap fun c => utf8 c.toNat

def Ascii (s : List Char) : Prop := ∀ c ∈ s, c.toNat < 0x80

instance (s : List Char) : Decidable (Ascii s) := s.decidableBAll fun c : Char => c.toNat < 0x80

-- Half of a surrogate pair alone is read as the replacement character.
def scalar (u : BitVec 16) : Nat := if 0xd800 ≤ u.toNat ∧ u.toNat < 0xe000 then 0xfffd else u.toNat

def decode : List Piece → List Char
  | [] => []
  | .char c :: pieces => c :: decode pieces
  | .unit high :: .unit low :: pieces =>
    if 0xd800 ≤ high.toNat ∧ high.toNat < 0xdc00 ∧ 0xdc00 ≤ low.toNat ∧ low.toNat < 0xe000 then
      utf8 (0x10000 + (high.toNat - 0xd800) * 0x400 + (low.toNat - 0xdc00)) ++ decode pieces
    else utf8 (scalar high) ++ decode (.unit low :: pieces)
  | .unit u :: pieces => utf8 (scalar u) ++ decode pieces

def Piece.weight : Piece → Nat
  | char _ => 1
  | unit _ => 3

def isSign (c : Char) : Bool := c == '+' || c == '-'

def fraction : List Char → Option (List Char)
  | '.' :: s => if s.takeWhile Char.isDigit = [] then none else some (s.dropWhile Char.isDigit)
  | s => some s

def exponent : List Char → Bool
  | [] => true
  | e :: s =>
    let digits := if s.head?.any isSign then s.tail else s
    (e == 'e' || e == 'E') && digits != [] && digits.all Char.isDigit

def unsigned (s : List Char) : List Char := if s.head? = some '-' then s.tail else s

/-- The grammar of a number. -/
def numeral (s : List Char) : Bool :=
  let whole := (unsigned s).takeWhile Char.isDigit
  whole != [] && (whole == ['0'] || whole.head? != some '0') && (fraction ((unsigned s).dropWhile Char.isDigit)).any exponent

/-- The integer that a number without fraction and exponent is. -/
def integer (s : List Char) : Option Int :=
  if numeral s ∧ (unsigned s).all Char.isDigit then
    some (if s.head? = some '-' then -(Nat.ofDigitChars 10 (unsigned s) 0) else Nat.ofDigitChars 10 (unsigned s) 0)
  else none

def isWord (s : List Char) : Bool := s == "true".toList || s == "false".toList || s == "null".toList

def punctuation (c : Char) : Option Token :=
  if c = '{' then some .lbrace
  else if c = '}' then some .rbrace
  else if c = '[' then some .lbracket
  else if c = ']' then some .rbracket
  else if c = ':' then some .colon
  else if c = ',' then some .comma
  else none

def unescape (c : Char) : Option Char :=
  if c = '"' ∨ c = '\\' ∨ c = '/' then some c
  else if c = 'b' then some '\x08'
  else if c = 'f' then some '\x0c'
  else if c = 'n' then some '\n'
  else if c = 'r' then some '\r'
  else if c = 't' then some '\t'
  else none

/-- Where in a token the text is. -/
inductive Lexer where
  | between
  | string (pieces : List Piece)
  | escape (pieces : List Piece)
  | unicode (pieces : List Piece) (digits : List Char)
  | number (text : List Char)
  | word (text : List Char)

namespace Lexer

def start (c : Char) : Option (List Token × Lexer) :=
  if c = ' ' ∨ c = '\t' ∨ c = '\n' ∨ c = '\r' then some ([], between)
  else if c = '"' then some ([], string [])
  else if c = '-' ∨ c.isDigit then some ([], number [c])
  else if c.isLower then some ([], word [c])
  else (punctuation c).map fun token => ([token], between)

-- What ends a number or a word begins the next token.
def after (token : Token) (c : Char) : Option (List Token × Lexer) := (start c).map fun next => (token :: next.1, next.2)

def step : Lexer → Char → Option (List Token × Lexer)
  | between, c => start c
  | string pieces, c =>
    if c = '"' then some ([.string (decode pieces)], between)
    else if c = '\\' then some ([], escape pieces)
    else if c < ' ' then none
    else some ([], string (pieces ++ [.char c]))
  | escape pieces, c => if c = 'u' then some ([], unicode pieces []) else (unescape c).map fun c => ([], string (pieces ++ [.char c]))
  | unicode pieces digits, c =>
    if (CStrings.digit 16 c).isNone then none
    else if digits.length < 3 then some ([], unicode pieces (digits ++ [c]))
    else some ([], string (pieces ++ [.unit (BitVec.ofNat 16 (CStrings.digits 16 0 (digits ++ [c])))]))
  | number text, c =>
    if c.isDigit ∨ isSign c ∨ c = '.' ∨ c = 'e' ∨ c = 'E' then some ([], number (text ++ [c]))
    else if numeral text then after (.number text) c
    else none
  | word text, c => if c.isLower then some ([], word (text ++ [c])) else if isWord text then after (.word text) c else none

def run : Lexer → List Char → Option (List Token × Lexer)
  | lexer, [] => some ([], lexer)
  | lexer, c :: s => (lexer.step c).bind fun next => (next.2.run s).map fun rest => (next.1 ++ rest.1, rest.2)

def finish : Lexer → Option (List Token)
  | between => some []
  | number text => if numeral text then some [.number text] else none
  | word text => if isWord text then some [.word text] else none
  | _ => none

end Lexer

def tokens (s : List Char) : Option (List Token) := (Lexer.between.run s).bind fun next => next.2.finish.map fun last => next.1 ++ last

example : tokens "\x7b\"a\\u00e9\\n\": -12.5e3\x7d".toList =
    some [.lbrace, .string ['a', '\xc3', '\xa9', '\n'], .colon, .number "-12.5e3".toList, .rbrace] := by decide

section Utf8

variable {s t : List Char}

theorem IsUtf8.append (first : IsUtf8 s) (second : IsUtf8 t) : IsUtf8 (s ++ t) := by
  obtain ⟨a, rfl⟩ := first
  obtain ⟨b, rfl⟩ := second
  exact ⟨a ++ b, List.flatMap_append.symm⟩

theorem isUtf8_flatMap {α : Type} {l : List α} {f : α → List Char} (each : ∀ x ∈ l, IsUtf8 (f x)) : IsUtf8 (l.flatMap f) := by
  induction l with
  | nil => exact ⟨[], rfl⟩
  | cons x l ih =>
    rw [List.flatMap_cons]
    exact (each x List.mem_cons_self).append (ih fun y member => each y (List.mem_cons_of_mem _ member))

theorem isUtf8_ascii (ascii : Ascii s) : IsUtf8 s := by
  refine ⟨s, ?_⟩
  induction s with
  | nil => rfl
  | cons c s ih =>
    rw [List.flatMap_cons, utf8, if_pos (ascii c List.mem_cons_self), Char.ofNat_toNat, ← ih fun d member => ascii d (List.mem_cons_of_mem _ member)]
    rfl

end Utf8

section Pieces

theorem length_utf8_le (n : Nat) : (utf8 n).length ≤ 4 := by
  unfold utf8
  split_ifs <;> simp

theorem length_utf8_scalar_le (u : BitVec 16) : (utf8 (scalar u)).length ≤ 3 := by
  have small : scalar u < 0x10000 := by
    unfold scalar
    split_ifs
    · decide
    · exact u.isLt
  unfold utf8
  split_ifs <;> simp

/-- No escape is shorter than what it stands for. -/
theorem length_decode_le (pieces : List Piece) : (decode pieces).length ≤ (pieces.map Piece.weight).sum := by
  fun_induction decode pieces with
  | case1 => exact Nat.le_refl 0
  | case2 c pieces ih =>
    rw [List.length_cons, List.map_cons, List.sum_cons, Nat.add_comm]
    exact Nat.add_le_add_left ih 1
  | case3 high low pieces pair ih =>
    have first := length_utf8_le (0x10000 + (high.toNat - 0xd800) * 0x400 + (low.toNat - 0xdc00))
    simp only [List.length_append, List.map_cons, List.sum_cons, Piece.weight]
    omega
  | case4 high low pieces alone ih =>
    have first := length_utf8_scalar_le high
    simp only [List.length_append, List.map_cons, List.sum_cons, Piece.weight] at ih ⊢
    omega
  | case5 u pieces last ih =>
    have first := length_utf8_scalar_le u
    simp only [List.length_append, List.map_cons, List.sum_cons, Piece.weight]
    omega

theorem decode_chars (s : List Char) : decode (s.map .char) = s := by
  induction s with
  | nil => rfl
  | cons c s ih => rw [List.map_cons, decode, ih]

end Pieces

section Strings

variable {s t : List Char}

/-- A character that stands for itself in a string. -/
def Plain (c : Char) : Prop := c ≠ '"' ∧ c ≠ '\\' ∧ ¬c < ' '

def PlainText (s : List Char) : Prop := ∀ c ∈ s, Plain c

instance (c : Char) : Decidable (Plain c) := inferInstanceAs (Decidable (c ≠ '"' ∧ c ≠ '\\' ∧ ¬c < ' '))

instance (s : List Char) : Decidable (PlainText s) := s.decidableBAll Plain

theorem run_append (lexer : Lexer) (s t : List Char) : lexer.run (s ++ t) =
    (lexer.run s).bind fun next => (next.2.run t).map fun rest => (next.1 ++ rest.1, rest.2) := by
  induction s generalizing lexer with
  | nil =>
    rw [List.nil_append, Lexer.run, Option.bind_some]
    simp
  | cons c s ih =>
    rw [List.cons_append, Lexer.run, Lexer.run]
    cases lexer.step c with
    | none => rfl
    | some next =>
      rw [Option.bind_some, Option.bind_some, ih]
      cases next.2.run s with
      | none => rfl
      | some middle =>
        rw [Option.bind_some, Option.map_some, Option.bind_some, Option.map_map]
        simp [Function.comp_def]

theorem run_silent {lexer next : Lexer} {c : Char} (step : lexer.step c = some ([], next)) (s : List Char) : lexer.run (c :: s) = next.run s := by
  rw [Lexer.run, step, Option.bind_some]
  simp

/-- Two parts of a text, each read to its end. -/
theorem run_append_of {lexer middle last : Lexer} {first second : List Token} (left : lexer.run s = some (first, middle))
    (right : middle.run t = some (second, last)) : lexer.run (s ++ t) = some (first ++ second, last) := by
  rw [run_append, left, Option.bind_some, right]
  rfl

theorem run_plain (plain : PlainText s) (pieces : List Piece) : (Lexer.string pieces).run s = some ([], .string (pieces ++ s.map .char)) := by
  induction s generalizing pieces with
  | nil => rw [List.map_nil, List.append_nil, Lexer.run]
  | cons c s ih =>
    obtain ⟨quote, escape, control⟩ := plain c List.mem_cons_self
    have step : (Lexer.string pieces).step c = some ([], .string (pieces ++ [.char c])) := by
      rw [Lexer.step, if_neg quote, if_neg escape, if_neg control]
    rw [run_silent step, ih fun d member => plain d (List.mem_cons_of_mem _ member)]
    simp

/-- A text without quotes, backslashes and control characters is read as it stands. -/
theorem run_quoted (plain : PlainText s) : Lexer.between.run ('"' :: s ++ ['"']) = some ([.string s], .between) := by
  have closed : (Lexer.string (s.map .char)).run ['"'] = some ([.string (decode (s.map .char))], .between) := rfl
  have opened := run_append_of (run_plain plain []) closed
  rw [decode_chars] at opened
  rw [List.cons_append, run_silent rfl]
  exact opened

end Strings

section Literals

variable {k : Nat} {lexer next : Lexer} {emitted : List Token} {s : List Char}

def weight (pieces : List Piece) : Nat := (pieces.map Piece.weight).sum

theorem weight_append (pieces : List Piece) (last : Piece) : weight (pieces ++ [last]) = weight pieces + last.weight := by
  simp [weight]

/-- A string, so many characters after its quote: all of them plain, or more of them than it has. -/
def Inside (k : Nat) : Lexer → Prop
  | .string pieces => (∃ t, pieces = t.map .char ∧ PlainText t ∧ t.length = k) ∨ weight pieces < k
  | .escape pieces => weight pieces < k
  | .unicode pieces digits => weight pieces + 2 + digits.length ≤ k ∧ digits.length ≤ 3
  | _ => False

theorem weight_chars (t : List Char) : weight (t.map .char) = t.length := by
  induction t with
  | nil => rfl
  | cons c t ih =>
    unfold weight at ih ⊢
    rw [List.map_cons, List.map_cons, List.sum_cons, ih, List.length_cons, Nat.add_comm]
    rfl

theorem Inside.step {c : Char} (inside : Inside k lexer) (step : lexer.step c = some (emitted, next)) :
    (emitted = [] ∧ Inside (k + 1) next) ∨ ∃ text, emitted = [.string text] ∧ (PlainText text ∨ text.length < k) := by
  cases lexer with
  | string pieces =>
    rw [Lexer.step] at step
    split_ifs at step with quote backslash control
    · cases step
      refine Or.inr ⟨_, rfl, ?_⟩
      rcases inside with ⟨t, rfl, plain, _⟩ | less
      · rw [decode_chars]
        exact Or.inl plain
      · exact Or.inr (Nat.lt_of_le_of_lt (length_decode_le pieces) less)
    · cases step
      refine Or.inl ⟨rfl, ?_⟩
      rcases inside with ⟨t, rfl, _, length⟩ | less
      · rw [Inside, weight_chars]
        omega
      · exact Nat.lt_succ_of_lt less
    · cases step
      refine Or.inl ⟨rfl, ?_⟩
      rcases inside with ⟨t, rfl, plain, length⟩ | less
      · refine Or.inl ⟨t ++ [c], by rw [List.map_append]; rfl, ?_, by rw [List.length_append, length]; rfl⟩
        intro d member
        rcases List.mem_append.mp member with old | last
        · exact plain d old
        · exact List.mem_singleton.mp last ▸ ⟨quote, backslash, control⟩
      · refine Or.inr ?_
        rw [weight_append]
        exact Nat.succ_lt_succ less
  | escape pieces =>
    rw [Lexer.step] at step
    unfold Inside at inside
    split_ifs at step
    · cases step
      exact Or.inl ⟨rfl, by rw [Inside, List.length_nil]; omega⟩
    · obtain ⟨d, _, same⟩ := Option.map_eq_some_iff.mp step
      cases same
      refine Or.inl ⟨rfl, Or.inr ?_⟩
      rw [weight_append]
      exact Nat.succ_lt_succ inside
  | unicode pieces digits =>
    rw [Lexer.step] at step
    obtain ⟨long, few⟩ := inside
    split_ifs at step with digit more
    · cases step
      refine Or.inl ⟨rfl, ?_⟩
      rw [Inside, List.length_append, List.length_singleton]
      omega
    · cases step
      refine Or.inl ⟨rfl, Or.inr ?_⟩
      rw [weight_append, Piece.weight]
      omega
  | between => exact inside.elim
  | number text => exact inside.elim
  | word text => exact inside.elim

theorem Inside.run (inside : Inside k lexer) (run : lexer.run s = some (emitted, next)) :
    (emitted = [] ∧ Inside (k + s.length) next) ∨
      ∃ text rest, emitted = .string text :: rest ∧ (PlainText text ∨ text.length + 1 < k + s.length) := by
  induction s generalizing k lexer emitted with
  | nil =>
    cases run
    exact Or.inl ⟨rfl, inside⟩
  | cons c s ih =>
    rw [Lexer.run] at run
    obtain ⟨first, step, later⟩ := Option.bind_eq_some_iff.mp run
    obtain ⟨rest, remaining, same⟩ := Option.map_eq_some_iff.mp later
    cases same
    rcases inside.step step with ⟨none, inside'⟩ | ⟨text, one, short⟩
    · rw [none, List.nil_append]
      have later := ih inside' remaining
      rw [Nat.add_assoc, Nat.add_comm 1, ← List.length_cons] at later
      exact later
    · refine Or.inr ⟨text, rest.1, by rw [one]; rfl, short.imp_right fun less => ?_⟩
      rw [List.length_cons]
      omega

/-- A text with a quote, a backslash or a control character is not read as it stands when the line ends after it. -/
theorem run_misread (special : ¬PlainText s) (run : (Lexer.string []).run (s ++ "\",\n".toList) = some (emitted, next)) :
    ∃ text rest, emitted = .string text :: rest ∧ text ≠ s := by
  have split : s ++ "\",\n".toList = (s ++ ['"']) ++ [',', '\n'] := by
    rw [List.append_assoc]
    rfl
  rw [split, run_append] at run
  obtain ⟨first, literal, later⟩ := Option.bind_eq_some_iff.mp run
  obtain ⟨rest, ended, same⟩ := Option.map_eq_some_iff.mp later
  cases same
  have inside : Inside 0 (.string []) := Or.inl ⟨[], rfl, fun _ absent => absurd absent List.not_mem_nil, rfl⟩
  rcases inside.run literal with ⟨_, inside'⟩ | ⟨text, tokens, opened, short⟩
  · -- The line cannot end inside of a string.
    exfalso
    cases state : first.2 with
    | string pieces =>
      rw [state] at ended
      cases ended
    | escape pieces =>
      rw [state] at ended
      cases ended
    | unicode pieces digits =>
      have comma : (CStrings.digit 16 ',').isNone = true := by decide
      rw [state, Lexer.run, Lexer.step, if_pos comma] at ended
      cases ended
    | between => exact (state ▸ inside' : Inside _ .between)
    | number text => exact (state ▸ inside' : Inside _ (.number text))
    | word text => exact (state ▸ inside' : Inside _ (.word text))
  · refine ⟨text, tokens ++ rest.1, by rw [opened]; rfl, ?_⟩
    rintro rfl
    rw [List.length_append, List.length_singleton, Nat.zero_add] at short
    exact short.elim special (Nat.lt_irrefl _)

end Literals

section Numerals

variable {s : List Char} {n : Nat}

theorem toDigits_zero (leading : (Nat.toDigits 10 n).head? = some '0') : n = 0 := by
  induction n using Nat.strong_induction_on with
  | h n ih =>
    rcases Nat.lt_or_ge n 10 with small | large
    · rw [Nat.toDigits_of_lt_base small] at leading
      exact Nat.digitChar_eq_zero.mp (Option.some.inj leading)
    · rw [Nat.toDigits_of_base_le (by decide) large, List.head?_append_of_ne_nil _ Nat.toDigits_ne_nil] at leading
      have none := ih (n / 10) (Nat.div_lt_self (by omega) (by decide)) leading
      omega

theorem toDigits_digit : ∀ c ∈ Nat.toDigits 10 n, c.isDigit = true := fun _ => Nat.isDigit_of_mem_toDigits (by decide) (by decide)

-- The decimal digits of an integer, with a sign where it is negative.
def decimal (n : Int) : List Char := (if n < 0 then ['-'] else []) ++ Nat.toDigits 10 n.natAbs

theorem minus_decimal (n : Int) : (decimal n).head? = some '-' ↔ n < 0 := by
  unfold decimal
  split_ifs with negative
  · exact iff_of_true rfl negative
  · refine iff_of_false (fun minus => ?_) negative
    have digit := toDigits_digit '-' (List.mem_of_mem_head? minus)
    exact absurd digit (by decide)

theorem unsigned_decimal (n : Int) : unsigned (decimal n) = Nat.toDigits 10 n.natAbs := by
  have minus := minus_decimal n
  unfold unsigned
  split_ifs with negative
  · rw [decimal, if_pos (minus.mp negative)]
    rfl
  · rw [decimal, if_neg fun less => negative (minus.mpr less)]
    rfl

theorem numeral_decimal (n : Int) : numeral (decimal n) = true := by
  have whole : (Nat.toDigits 10 n.natAbs).takeWhile Char.isDigit = Nat.toDigits 10 n.natAbs := List.takeWhile_eq_self_iff.mpr toDigits_digit
  have rest : (Nat.toDigits 10 n.natAbs).dropWhile Char.isDigit = [] := List.dropWhile_eq_nil_iff.mpr toDigits_digit
  have leading : Nat.toDigits 10 n.natAbs = ['0'] ∨ (Nat.toDigits 10 n.natAbs).head? ≠ some '0' := by
    by_cases zero : (Nat.toDigits 10 n.natAbs).head? = some '0'
    · exact Or.inl (by rw [toDigits_zero zero]; rfl)
    · exact Or.inr zero
  unfold numeral
  rw [unsigned_decimal, whole, rest]
  simpa [fraction, exponent, Nat.toDigits_ne_nil] using leading

theorem integer_decimal (n : Int) : integer (decimal n) = some n := by
  unfold integer
  rw [if_pos ⟨numeral_decimal n, by rw [unsigned_decimal]; exact List.all_eq_true.mpr toDigits_digit⟩, unsigned_decimal,
    Nat.ofDigitChars_toDigits (by decide) (by decide), Option.some_inj]
  split_ifs with minus
  · rw [minus_decimal] at minus
    omega
  · rw [minus_decimal] at minus
    omega

theorem run_digits (digits : ∀ c ∈ s, c.isDigit = true) (text : List Char) : (Lexer.number text).run s = some ([], .number (text ++ s)) := by
  induction s generalizing text with
  | nil => rw [List.append_nil, Lexer.run]
  | cons c s ih =>
    have step : (Lexer.number text).step c = some ([], .number (text ++ [c])) := by rw [Lexer.step, if_pos (Or.inl (digits c List.mem_cons_self))]
    rw [run_silent step, ih fun d member => digits d (List.mem_cons_of_mem _ member)]
    simp

theorem start_digit {c : Char} (digit : c = '-' ∨ c.isDigit = true) : Lexer.start c = some ([], .number [c]) := by
  have other : ∀ d, d.isDigit = false → d ≠ '-' → c ≠ d := by
    rintro d none sign rfl
    exact digit.elim sign fun digit => Bool.false_ne_true (none.symm.trans digit)
  unfold Lexer.start
  rw [if_neg (by simpa using ⟨other ' ' rfl (by decide), other '\t' rfl (by decide), other '\n' rfl (by decide), other '\r' rfl (by decide)⟩),
    if_neg (other '"' rfl (by decide)), if_pos digit]

/-- A number is read up to the comma. -/
theorem run_decimal (n : Int) : Lexer.between.run (decimal n ++ [',']) = some ([.number (decimal n), .comma], .between) := by
  obtain ⟨c, rest, split⟩ := List.exists_cons_of_ne_nil (show decimal n ≠ [] by simp [decimal, Nat.toDigits_ne_nil])
  have digits : (c = '-' ∨ c.isDigit = true) ∧ ∀ d ∈ rest, d.isDigit = true := by
    have all := @toDigits_digit n.natAbs
    unfold decimal at split
    split_ifs at split
    · cases split
      exact ⟨Or.inl rfl, all⟩
    · rw [List.nil_append] at split
      rw [split] at all
      exact ⟨Or.inr (all c List.mem_cons_self), fun d member => all d (List.mem_cons_of_mem _ member)⟩
  have ended : (Lexer.number (decimal n)).run [','] = some ([.number (decimal n), .comma], .between) := by
    have notDigit : ¬(','.isDigit = true ∨ isSign ',' = true ∨ ',' = '.' ∨ ',' = 'e' ∨ ',' = 'E') := by decide
    rw [Lexer.run, Lexer.step, if_neg notDigit, if_pos (numeral_decimal n)]
    rfl
  have read : Lexer.between.run (c :: rest) = some ([], .number (c :: rest)) := by
    rw [run_silent (show Lexer.between.step c = _ from start_digit digits.1), run_digits digits.2]
    rfl
  rw [← split] at read
  exact run_append_of read ended

end Numerals

/-- An object holds its members in their order, also those of one name. -/
inductive Json where
  | word (text : List Char)
  | number (text : List Char)
  | string (text : List Char)
  | array (elements : List Json)
  | object (members : List (List Char × Json))

/-- An open container: what it holds, and in an object the name of the next value. -/
inductive Frame where
  | array (elements : List Json)
  | object (members : List (List Char × Json)) (name : List Char)

/-- What may come next, in the innermost container first. -/
inductive Reader where
  | beforeValue (outer : List Frame)
  | firstElement (outer : List Frame)
  | firstMember (outer : List Frame)
  | beforeName (members : List (List Char × Json)) (outer : List Frame)
  | beforeColon (members : List (List Char × Json)) (name : List Char) (outer : List Frame)
  | nextElement (elements : List Json) (outer : List Frame)
  | nextMember (members : List (List Char × Json)) (outer : List Frame)
  | done (value : Json)

namespace Reader

def push (value : Json) : List Frame → Reader
  | [] => done value
  | .array elements :: outer => nextElement (elements ++ [value]) outer
  | .object members name :: outer => nextMember (members ++ [(name, value)]) outer

def beginValue (outer : List Frame) : Token → Option Reader
  | .string text => some (push (.string text) outer)
  | .number text => some (push (.number text) outer)
  | .word text => some (push (.word text) outer)
  | .lbrace => some (firstMember outer)
  | .lbracket => some (firstElement outer)
  | _ => none

def step : Reader → Token → Option Reader
  | beforeValue outer, token => beginValue outer token
  | firstElement outer, token => if token = .rbracket then some (push (.array []) outer) else beginValue (.array [] :: outer) token
  | firstMember outer, .rbrace => some (push (.object []) outer)
  | firstMember outer, .string text => some (beforeColon [] text outer)
  | beforeName members outer, .string text => some (beforeColon members text outer)
  | beforeColon members name outer, .colon => some (beforeValue (.object members name :: outer))
  | nextElement elements outer, .comma => some (beforeValue (.array elements :: outer))
  | nextElement elements outer, .rbracket => some (push (.array elements) outer)
  | nextMember members outer, .comma => some (beforeName members outer)
  | nextMember members outer, .rbrace => some (push (.object members) outer)
  | _, _ => none

def result : Reader → Option Json
  | done value => some value
  | _ => none

end Reader

def parse (s : List Char) : Option Json := (tokens s).bind fun tokens => (tokens.foldlM Reader.step (.beforeValue [])).bind Reader.result

section Members

variable {outer : List Frame} {members : List (List Char × Json)}

/-- A value of one token. -/
inductive Simple : Token → Json → Prop where
  | string (text : List Char) : Simple (.string text) (.string text)
  | number (text : List Char) : Simple (.number text) (.number text)

def memberTokens (name : List Char) (value : Token) : List Token := [.string name, .colon, value, .comma]

theorem step_firstMember (text : List Char) : Reader.step (.firstMember outer) (.string text) = Reader.step (.beforeName [] outer) (.string text) := rfl

theorem foldlM_member {token : Token} {value : Json} (simple : Simple token value) (name : List Char) :
    (memberTokens name token).foldlM Reader.step (.beforeName members outer) = some (.beforeName (members ++ [(name, value)]) outer) := by
  cases simple <;> rfl

end Members

section Nesting

variable {outer : List Frame} {reader last : Reader} {members : List (List Char × Json)} {tokens : List Token} {value : Json}

/-- A reader whose outermost value is a part of what is read. -/
def Reader.within (outer : List Frame) : Reader → Reader
  | .beforeValue inner => .beforeValue (inner ++ outer)
  | .firstElement inner => .firstElement (inner ++ outer)
  | .firstMember inner => .firstMember (inner ++ outer)
  | .beforeName members inner => .beforeName members (inner ++ outer)
  | .beforeColon members name inner => .beforeColon members name (inner ++ outer)
  | .nextElement elements inner => .nextElement elements (inner ++ outer)
  | .nextMember members inner => .nextMember members (inner ++ outer)
  | .done value => push value outer

theorem push_within (value : Json) (inner : List Frame) : Reader.push value (inner ++ outer) = (Reader.push value inner).within outer := by
  cases inner with
  | nil => rfl
  | cons frame inner => cases frame <;> rfl

theorem beginValue_within (inner : List Frame) (token : Token) :
    Reader.beginValue (inner ++ outer) token = (Reader.beginValue inner token).map (Reader.within outer) := by
  cases token <;> simp [Reader.beginValue, push_within, Reader.within]

theorem step_within (open_ : ∀ value, reader ≠ .done value) (token : Token) :
    (reader.within outer).step token = (reader.step token).map (Reader.within outer) := by
  cases reader with
  | beforeValue inner => exact beginValue_within inner token
  | firstElement inner =>
    have element := @beginValue_within outer (.array [] :: inner) token
    simp only [Reader.within, Reader.step]
    split_ifs
    · rw [push_within, Option.map_some]
    · exact element
  | firstMember inner => cases token <;> simp [Reader.within, Reader.step, push_within]
  | beforeName members inner => cases token <;> simp [Reader.within, Reader.step]
  | beforeColon members name inner => cases token <;> simp [Reader.within, Reader.step]
  | nextElement elements inner => cases token <;> simp [Reader.within, Reader.step, push_within]
  | nextMember members inner => cases token <;> simp [Reader.within, Reader.step, push_within]
  | done value => exact absurd rfl (open_ value)

/-- A nested value is either still read, or what follows it is read behind it. -/
theorem foldlM_within (whole : tokens.foldlM Reader.step (reader.within outer) = some last) :
    (∃ inner : Reader, last = inner.within outer ∧ ∀ value, inner ≠ .done value) ∨
      ∃ front back value, tokens = front ++ back ∧ front.foldlM Reader.step reader = some (.done value) ∧
        back.foldlM Reader.step (.push value outer) = some last := by
  induction tokens generalizing reader with
  | nil =>
    cases whole
    by_cases closed : ∃ value, reader = .done value
    · obtain ⟨value, rfl⟩ := closed
      exact Or.inr ⟨[], [], value, rfl, rfl, rfl⟩
    · exact Or.inl ⟨reader, rfl, fun value same => closed ⟨value, same⟩⟩
  | cons token tokens ih =>
    by_cases closed : ∃ value, reader = .done value
    · obtain ⟨value, rfl⟩ := closed
      exact Or.inr ⟨[], token :: tokens, value, rfl, rfl, whole⟩
    · rw [List.foldlM_cons, step_within fun value same => closed ⟨value, same⟩] at whole
      cases stepped : reader.step token with
      | none =>
        rw [stepped] at whole
        cases whole
      | some next =>
        rw [stepped] at whole
        refine (ih whole).imp_right ?_
        rintro ⟨front, back, value, split, first, second⟩
        refine ⟨token :: front, back, value, by rw [split, List.cons_append], ?_, second⟩
        rw [List.foldlM_cons, stepped]
        exact first

/-- A value in a container is read to its end before the container is. -/
theorem foldlM_within_done {frame : Frame} (whole : tokens.foldlM Reader.step (reader.within [frame]) = some (.done value)) :
    ∃ front back inner, tokens = front ++ back ∧ front.foldlM Reader.step reader = some (.done inner) ∧
      back.foldlM Reader.step (.push inner [frame]) = some (.done value) := by
  rcases foldlM_within whole with ⟨inner, same, open_⟩ | parts
  · cases inner with
    | done value => exact absurd rfl (open_ value)
    | beforeValue inner => cases same
    | firstElement inner => cases same
    | firstMember inner => cases same
    | beforeName members inner => cases same
    | beforeColon members name inner => cases same
    | nextElement elements inner => cases same
    | nextMember members inner => cases same
  · exact parts

theorem foldlM_done (whole : tokens.foldlM Reader.step (.done value) = some last) : tokens = [] := by
  cases tokens with
  | nil => rfl
  | cons token tokens => cases whole

/-- The members that were read stay. -/
theorem object_of_nextMember (whole : tokens.foldlM Reader.step (.nextMember members []) = some (.done value)) :
    ∃ more, value = .object (members ++ more) := by
  induction length : tokens.length using Nat.strong_induction_on generalizing tokens members with
  | h n ih =>
    rcases tokens with _ | ⟨token, tokens⟩
    · cases whole
    cases token with
    | rbrace =>
      have ended := @foldlM_done _ _ (.object members) whole
      rw [ended] at whole
      cases whole
      exact ⟨[], by rw [List.append_nil]⟩
    | comma =>
      rcases tokens with _ | ⟨token, tokens⟩
      · cases whole
      cases token with
      | string key =>
        rcases tokens with _ | ⟨token, tokens⟩
        · cases whole
        cases token with
        | colon =>
          obtain ⟨front, back, inner, split, _, later⟩ := @foldlM_within_done (.beforeValue []) _ _ (.object members key) whole
          have shorter : back.length < n := by
            rw [← length, split]
            simp only [List.length_cons, List.length_append]
            omega
          obtain ⟨more, same⟩ := ih back.length shorter later rfl
          exact ⟨(key, inner) :: more, by rw [same, List.append_assoc]; rfl⟩
        | _ => cases whole
      | _ => cases whole
    | _ => cases whole

/-- So do those of an object that is itself a member. -/
theorem object_of_nested {key : List Char} {outerMembers : List (List Char × Json)}
    (whole : tokens.foldlM Reader.step (.nextMember members [.object outerMembers key]) = some (.done value)) :
    ∃ more later, value = .object (outerMembers ++ (key, .object (members ++ more)) :: later) := by
  obtain ⟨front, back, inner, _, first, second⟩ := @foldlM_within_done (.nextMember members []) _ _ (.object outerMembers key) whole
  obtain ⟨more, rfl⟩ := object_of_nextMember first
  obtain ⟨later, rfl⟩ := object_of_nextMember second
  exact ⟨more, later, by rw [List.append_assoc]; rfl⟩

end Nesting

end JsonText
