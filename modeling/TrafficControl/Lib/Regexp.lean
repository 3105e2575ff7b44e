set_option autoImplicit false

-- Expressions that are compiled from their text, and the parts of a text that they match.
namespace Regexp

/-- What an engine compiles. An expression matches a part of a text between what stands before and
after it. -/
structure Engine where
  Expr : Type
  compile : List Char → Except String Expr
  matchesPart : Expr → List Char → List Char → List Char → Bool

namespace Engine

variable (engine : Engine)

def matchString (expr : engine.Expr) (text : List Char) : Bool :=
  (List.range (text.length + 1)).any fun start =>
    (List.range (text.length + 1 - start)).any fun n =>
      engine.matchesPart expr (text.take start) ((text.drop start).take n) (text.drop (start + n))

/-- The expression, anchored at both ends. -/
def matchesWhole (expr : engine.Expr) (text : List Char) : Bool := engine.matchesPart expr [] text []

theorem matchString_iff {expr : engine.Expr} {text : List Char} :
    engine.matchString expr text = true ↔
      ∃ before part after, text = before ++ part ++ after ∧ engine.matchesPart expr before part after = true := by
  simp only [matchString, List.any_eq_true, List.mem_range]
  constructor
  · rintro ⟨start, -, n, -, found⟩
    refine ⟨_, _, _, ?_, found⟩
    rw [List.append_assoc, ← List.drop_drop, List.take_append_drop, List.take_append_drop]
  · rintro ⟨before, part, after, rfl, found⟩
    refine ⟨before.length, by simp only [List.length_append]; omega, part.length, by simp only [List.length_append]; omega, ?_⟩
    rw [← List.drop_drop]
    simpa [List.append_assoc] using found

theorem matchString_of_matchesWhole {expr : engine.Expr} {text : List Char}
    (whole : engine.matchesWhole expr text = true) : engine.matchString expr text = true :=
  engine.matchString_iff.mpr ⟨[], text, [], by simp, whole⟩

end Engine

/-- One character, any character of a line, or any part of a line. -/
inductive Piece where
  | literal (c : Char)
  | any
  | anyStar
deriving DecidableEq

def special : List Char := ['\\', '.', '+', '*', '?', '(', ')', '|', '[', ']', '\x7b', '\x7d', '^', '$']

def Piece.text : Piece → List Char
  | literal c => if c ∈ special then ['\\', c] else [c]
  | any => ['.']
  | anyStar => ['.', '*']

def text (pieces : List Piece) : List Char := pieces.flatMap Piece.text

/-- Some part of a line comes first. -/
def skipLine (later : List Char → Bool) : List Char → Bool
  | [] => later []
  | first :: s => later (first :: s) || (first != '\n' && skipLine later s)

def spells : List Piece → List Char → Bool
  | [], s => s.isEmpty
  | .literal c :: pieces, s => s.head? == some c && spells pieces s.tail
  | .any :: pieces, s => s.head?.any (· != '\n') && spells pieces s.tail
  | .anyStar :: pieces, s => skipLine (spells pieces) s

-- The documented meaning of a text that is written with these pieces.
structure Engine.Documented (engine : Engine) : Prop where
  compiles : ∀ pieces, ∃ expr, engine.compile (text pieces) = .ok expr ∧
    ∀ before part after, engine.matchesPart expr before part after = spells pieces part

def OneLine (s : List Char) : Prop := '\n' ∉ s

theorem skipLine_iff {later : List Char → Bool} {s : List Char} :
    skipLine later s = true ↔ ∃ skipped rest, s = skipped ++ rest ∧ OneLine skipped ∧ later rest = true := by
  constructor
  · intro spelled
    induction s with
    | nil => exact ⟨[], [], rfl, by simp [OneLine], spelled⟩
    | cons first s ih =>
      simp only [skipLine, Bool.or_eq_true, Bool.and_eq_true, bne_iff_ne, ne_eq] at spelled
      obtain here | ⟨line, found⟩ := spelled
      · exact ⟨[], first :: s, rfl, by simp [OneLine], here⟩
      · obtain ⟨skipped, rest, rfl, clear, found⟩ := ih found
        refine ⟨first :: skipped, rest, rfl, ?_, found⟩
        intro member
        obtain same | tail := List.mem_cons.mp member
        · exact line same.symm
        · exact clear tail
  · rintro ⟨skipped, rest, rfl, line, found⟩
    induction skipped with
    | nil => cases rest <;> simp_all [skipLine]
    | cons first skipped ih =>
      have here : first ≠ '\n' := fun same => line (same ▸ List.mem_cons_self)
      have later := ih fun member => line (List.mem_cons_of_mem _ member)
      simp [skipLine, here, later]

/-- A text that starts with given characters goes on as the pieces after them say. -/
theorem spells_literals_iff (cs : List Char) {pieces : List Piece} {s : List Char} :
    spells (cs.map Piece.literal ++ pieces) s = true ↔ ∃ rest, s = cs ++ rest ∧ spells pieces rest = true := by
  induction cs generalizing s with
  | nil => simp
  | cons c cs ih =>
    cases s with
    | nil => simp [spells]
    | cons first s =>
      simp only [List.map_cons, List.cons_append, spells, List.head?_cons, List.tail_cons, Bool.and_eq_true, beq_iff_eq,
        Option.some.injEq, ih, List.cons.injEq]
      constructor
      · rintro ⟨rfl, rest, rfl, later⟩
        exact ⟨rest, ⟨rfl, rfl⟩, later⟩
      · rintro ⟨rest, ⟨rfl, rfl⟩, later⟩
        exact ⟨rfl, rest, rfl, later⟩

theorem spells_anyStar_iff {s : List Char} : spells [.anyStar] s = true ↔ OneLine s := by
  rw [spells, skipLine_iff]
  constructor
  · rintro ⟨skipped, rest, rfl, line, found⟩
    rw [List.isEmpty_iff.mp found, List.append_nil]
    exact line
  · intro line
    exact ⟨s, [], by simp, line, rfl⟩

-- The engine that compiles nothing but pieces.
def pieces : List Char → Except String (List Piece)
  | [] => .ok []
  | '\\' :: c :: rest => if c ∈ special then (pieces rest).map (.literal c :: ·) else .error "invalid escape sequence"
  | '.' :: '*' :: rest => (pieces rest).map (.anyStar :: ·)
  | '.' :: rest => (pieces rest).map (.any :: ·)
  | c :: rest => if c ∈ special then .error "unsupported" else (pieces rest).map (.literal c :: ·)

def pieceEngine : Engine where
  Expr := List Piece
  compile := pieces
  matchesPart expr _ part _ := spells expr part

theorem text_starless (written : List Piece) (rest : List Char) : text written ≠ '*' :: rest := by
  intro starts
  cases written with
  | nil => cases starts
  | cons piece written =>
    have first := congrArg List.head? starts
    cases piece with
    | literal c =>
      by_cases is : c ∈ special
      · simp [text, Piece.text, is] at first
      · simp only [text, List.flatMap_cons, Piece.text, is, if_false, List.cons_append, List.nil_append, List.head?_cons,
          Option.some.injEq] at first
        subst first
        exact is (by decide)
    | any => simp [text, Piece.text] at first
    | anyStar => simp [text, Piece.text] at first

theorem pieces_text (written : List Piece) : pieces (text written) = .ok written := by
  induction written with
  | nil => rfl
  | cons piece written ih =>
    have split : text (piece :: written) = piece.text ++ text written := by simp [text]
    rw [split]
    cases piece with
    | literal c =>
      by_cases is : c ∈ special
      · rw [Piece.text, if_pos is, List.cons_append, List.cons_append, List.nil_append, pieces, if_pos is, ih]
        rfl
      · have plain : c ≠ '\\' ∧ c ≠ '.' := by
          constructor <;>
          · rintro rfl
            exact is (by decide)
        rw [Piece.text, if_neg is, List.cons_append, List.nil_append, pieces, if_neg is, ih]
        · rfl
        · exact fun _ _ same _ => plain.1 same
        · exact fun _ same _ => plain.2 same
        · exact plain.2
    | any =>
      rw [Piece.text, List.cons_append, List.nil_append, pieces, ih]
      · rfl
      · exact fun rest same => text_starless written rest same
    | anyStar =>
      rw [Piece.text, List.cons_append, List.cons_append, List.nil_append, pieces, ih]
      rfl

theorem pieceEngine_documented : pieceEngine.Documented :=
  ⟨fun written => ⟨written, pieces_text written, fun _ _ _ => rfl⟩⟩

end Regexp
