import Mathlib.Logic.Function.Basic
import Mathlib.Data.List.Infix
import TrafficControl.Lib.ExceptList
import TrafficControl.Lib.Regexp

set_option autoImplicit false

namespace TrafficControl.TrafficMonitor.ToData

open Regexp

structure Regexes (engine : Engine) where
  directMatches : List Char → Option String
  dotStartSlashDotFooSlashDotDotStar : List Char → Option String
  regexMatch : List (engine.Expr × String)

inductive Fault where
  | panic
  | error (text : String)
deriving DecidableEq

-- `.*\.`
def prefixStr : List Char := ['.', '*', '\\', '.']

-- `\..*`
def suffixStr : List Char := ['\\', '.', '.', '*']

-- What makes an expression more than a direct match.
def regexChars : List Char :=
  ['[', ']', '^', '\\', ':', '\x7b', '\x7d', '(', ')', '|', '?', '+', '*', ',', '=', '%', '@', '<', '>', '!', '\'']

def Dotted (regexStr : List Char) : Prop := prefixStr <+: regexStr ∧ suffixStr <:+ regexStr

instance (regexStr : List Char) : Decidable (Dotted regexStr) := inferInstanceAs (Decidable (_ ∧ _))

def Direct (regexStr : List Char) : Prop := ¬Dotted regexStr ∧ ∀ c ∈ regexStr, c ∉ regexChars

def General (regexStr : List Char) : Prop := ¬Dotted regexStr ∧ ∃ c ∈ regexStr, c ∈ regexChars

def fqdn (domain subdomain subsubdomain : List Char) : List Char := subsubdomain ++ '.' :: subdomain ++ '.' :: domain

section Lookup

variable {engine : Engine}

def Regexes.new : Regexes engine := ⟨fun _ => none, fun _ => none, []⟩

-- A map of expressions is visited in some order.
def Regexes.deliveryService (this : Regexes engine) (visited : List (engine.Expr × String))
    (domain subdomain subsubdomain : List Char) : Option String :=
  match this.dotStartSlashDotFooSlashDotDotStar subdomain with
  | some ds => some ds
  | none =>
    match this.directMatches (fqdn domain subdomain subsubdomain) with
    | some ds => some ds
    | none => (visited.find? fun entry => engine.matchString entry.1 (fqdn domain subdomain subsubdomain)).map (·.2)

end Lookup

section Creation

variable (engine : Engine)

-- One turn of the loops of `createRegexes`. Slicing where the two ends overlap is a panic.
def addRegex (ds : String) (dsRegexes : Regexes engine) (regexStr : List Char) : Except Fault (Regexes engine) :=
  if Dotted regexStr then
    if regexStr.length - suffixStr.length < prefixStr.length then .error .panic
    else
      let matchStr := (regexStr.take (regexStr.length - suffixStr.length)).drop prefixStr.length
      match dsRegexes.dotStartSlashDotFooSlashDotDotStar matchStr with
      | some otherDs => .error (.error ("duplicate regex " ++ String.ofList regexStr ++ " (" ++ String.ofList matchStr ++
          ") in " ++ ds ++ " and " ++ otherDs))
      | none =>
        let dotMatches := Function.update dsRegexes.dotStartSlashDotFooSlashDotDotStar matchStr (some ds)
        .ok { dsRegexes with dotStartSlashDotFooSlashDotDotStar := dotMatches }
  else if regexStr.all (· ∉ regexChars) then
    match dsRegexes.directMatches regexStr with
    | some otherDs => .error (.error ("duplicate Regex " ++ String.ofList regexStr ++ " in " ++ ds ++ " and " ++ otherDs))
    | none => .ok { dsRegexes with directMatches := Function.update dsRegexes.directMatches regexStr (some ds) }
  else
    match engine.compile regexStr with
    | .error err => .error (.error ("regex " ++ String.ofList regexStr ++ " failed to compile: " ++ err))
    | .ok r => .ok { dsRegexes with regexMatch := dsRegexes.regexMatch ++ [(r, ds)] }

def createRegexes (dsToRegex : List (String × List (List Char))) : Except Fault (Regexes engine) :=
  dsToRegex.foldlM (fun dsRegexes entry => entry.2.foldlM (addRegex engine entry.1) dsRegexes) Regexes.new

end Creation

def between (foo : List Char) : List Char := prefixStr ++ foo ++ suffixStr

/-- The tables hold the expressions that were added, each under its delivery service. -/
structure Tables {engine : Engine} (added : List (String × List Char)) (regexes : Regexes engine) : Prop where
  dotted : ∀ foo ds, regexes.dotStartSlashDotFooSlashDotDotStar foo = some ds ↔
    (ds, between foo) ∈ added ∧ Dotted (between foo)
  direct : ∀ r ds, regexes.directMatches r = some ds ↔ (ds, r) ∈ added ∧ Direct r
  general : ∀ expr ds, (expr, ds) ∈ regexes.regexMatch ↔ ∃ r, ((ds, r) ∈ added ∧ General r) ∧ engine.compile r = .ok expr
  compiled : ∀ ds r, (ds, r) ∈ added ∧ General r → ∃ expr, engine.compile r = .ok expr
  separate : ∀ ds r, (ds, r) ∈ added ∧ Dotted r → ∃ foo, r = between foo

section Shapes

theorem dotted_between (foo : List Char) : Dotted (between foo) :=
  ⟨⟨foo ++ suffixStr, by rw [between, List.append_assoc]⟩, ⟨prefixStr ++ foo, rfl⟩⟩

theorem between_inj {foo bar : List Char} : between foo = between bar ↔ foo = bar :=
  ⟨fun same => List.append_cancel_left (List.append_cancel_right same), congrArg between⟩

theorem Direct.not_general {regexStr : List Char} (direct : Direct regexStr) : ¬General regexStr := by
  rintro ⟨-, c, member, found⟩
  exact direct.2 c member found

/-- What is cut out between the ends is what stands between them. -/
theorem dotted_eq {regexStr : List Char} (dotted : Dotted regexStr)
    (long : ¬regexStr.length - suffixStr.length < prefixStr.length) :
    regexStr = between ((regexStr.take (regexStr.length - suffixStr.length)).drop prefixStr.length) := by
  obtain ⟨⟨rest, starts⟩, ⟨front, ends⟩⟩ := dotted
  have cut : regexStr.take (regexStr.length - suffixStr.length) = front := by
    rw [← ends, List.length_append, Nat.add_sub_cancel]
    exact List.take_left
  have enough : prefixStr.length ≤ front.length := by
    rw [← ends, List.length_append, Nat.add_sub_cancel] at long
    omega
  have begins : prefixStr <+: front := by
    refine List.prefix_of_prefix_length_le ⟨rest, starts⟩ ⟨suffixStr, ends⟩ enough
  obtain ⟨foo, rfl⟩ := begins
  rw [cut, List.drop_left]
  exact ends.symm

/-- The ends overlap in one expression only. -/
theorem dotted_overlap {regexStr : List Char} (dotted : Dotted regexStr)
    (short : regexStr.length - suffixStr.length < prefixStr.length) : regexStr = ['.', '*', '\\', '.', '.', '*'] := by
  obtain ⟨⟨rest, starts⟩, ⟨front, ends⟩⟩ := dotted
  have few : front.length < 4 := by
    rw [← ends, List.length_append, Nat.add_sub_cancel] at short
    exact short
  have same : prefixStr ++ rest = front ++ suffixStr := starts.trans ends.symm
  match front, few with
  | [], _ =>
    have first := congrArg List.head? same
    exact absurd first (by simp [prefixStr, suffixStr])
  | [a], _ =>
    have second := congrArg (fun s : List Char => s[1]?) same
    exact absurd second (by simp [prefixStr, suffixStr])
  | [a, b], _ =>
    simp only [prefixStr, suffixStr, List.cons_append, List.nil_append, List.cons.injEq] at same
    obtain ⟨rfl, rfl, -, -, -⟩ := same
    exact ends.symm
  | [a, b, c], _ =>
    have fourth := congrArg (fun s : List Char => s[3]?) same
    exact absurd fourth (by simp [prefixStr, suffixStr])

end Shapes

section Creating

variable {engine : Engine}

/-- Everything one turn can do to the tables. -/
theorem addRegex_ok {ds : String} {before after : Regexes engine} {regexStr : List Char}
    (added : addRegex engine ds before regexStr = .ok after) :
    (∃ foo, regexStr = between foo ∧ before.dotStartSlashDotFooSlashDotDotStar foo = none ∧
      after = ⟨before.directMatches, Function.update before.dotStartSlashDotFooSlashDotDotStar foo (some ds),
        before.regexMatch⟩) ∨
    (Direct regexStr ∧ before.directMatches regexStr = none ∧
      after = ⟨Function.update before.directMatches regexStr (some ds), before.dotStartSlashDotFooSlashDotDotStar,
        before.regexMatch⟩) ∨
    ∃ expr, General regexStr ∧ engine.compile regexStr = .ok expr ∧
      after = ⟨before.directMatches, before.dotStartSlashDotFooSlashDotDotStar, before.regexMatch ++ [(expr, ds)]⟩ := by
  unfold addRegex at added
  split_ifs at added with dotted short plain
  · dsimp only at added
    split at added
    next => cases added
    next free => exact Or.inl ⟨_, dotted_eq dotted short, free, (Except.ok.inj added).symm⟩
  · split at added
    next => cases added
    next free =>
      have direct : Direct regexStr := ⟨dotted, by simpa using plain⟩
      exact Or.inr (Or.inl ⟨direct, free, (Except.ok.inj added).symm⟩)
  · split at added
    next => cases added
    next expr compiled =>
      have general : General regexStr := ⟨dotted, by simpa using plain⟩
      exact Or.inr (Or.inr ⟨expr, general, compiled, (Except.ok.inj added).symm⟩)

section Kinds

variable {kind : List Char → Prop} {listed : List (String × List Char)} {ds : String} {regexStr : List Char}

theorem added_other (other : ¬kind regexStr) (name : String) (r : List Char) :
    ((name, r) ∈ listed ++ [(ds, regexStr)] ∧ kind r) ↔ (name, r) ∈ listed ∧ kind r := by
  simp only [List.mem_append, List.mem_singleton, Prod.mk.injEq]
  constructor
  · rintro ⟨member | ⟨-, rfl⟩, is⟩
    · exact ⟨member, is⟩
    · exact absurd is other
  · rintro ⟨member, is⟩
    exact ⟨Or.inl member, is⟩

theorem added_own (own : kind regexStr) (name : String) (r : List Char) :
    ((name, r) ∈ listed ++ [(ds, regexStr)] ∧ kind r) ↔ ((name, r) ∈ listed ∧ kind r) ∨ name = ds ∧ r = regexStr := by
  simp only [List.mem_append, List.mem_singleton, Prod.mk.injEq]
  constructor
  · rintro ⟨member | last, is⟩
    · exact Or.inl ⟨member, is⟩
    · exact Or.inr last
  · rintro (⟨member, is⟩ | ⟨rfl, rfl⟩)
    · exact ⟨Or.inl member, is⟩
    · exact ⟨Or.inr ⟨rfl, rfl⟩, own⟩

end Kinds

/-- A key that is free belongs to what is entered under it and to nothing listed before. -/
theorem update_free {listed : Prop} {found : List Char → Option String} {key r : List Char} {ds name : String}
    (free : found key = none) (lookup : found r = some name ↔ listed) :
    Function.update found key (some ds) r = some name ↔ listed ∨ name = ds ∧ r = key := by
  by_cases same : r = key
  · subst same
    have absent : ¬listed := by
      intro member
      rw [← lookup, free] at member
      cases member
    simp [absent, eq_comm]
  · simp [same, lookup]

theorem tables_new : Tables [] (Regexes.new : Regexes engine) := by
  constructor <;> simp [Regexes.new]

theorem addRegex_tables {ds : String} {before after : Regexes engine} {regexStr : List Char}
    {listed : List (String × List Char)} (tables : Tables listed before)
    (added : addRegex engine ds before regexStr = .ok after) : Tables (listed ++ [(ds, regexStr)]) after := by
  obtain ⟨foo, rfl, free, rfl⟩ | ⟨direct, free, rfl⟩ | ⟨expr, general, compiled, rfl⟩ := addRegex_ok added
  · have dotted := dotted_between foo
    have notDirect : ¬Direct (between foo) := fun direct => direct.1 dotted
    have notGeneral : ¬General (between foo) := fun general => general.1 dotted
    constructor
    case dotted =>
      intro bar name
      rw [added_own dotted, between_inj]
      exact update_free free (tables.dotted bar name)
    case direct => simpa only [added_other notDirect] using tables.direct
    case general => simpa only [added_other notGeneral] using tables.general
    case compiled => simpa only [added_other notGeneral] using tables.compiled
    case separate =>
      intro name r found
      obtain before | ⟨-, rfl⟩ := (added_own dotted name r).mp found
      · exact tables.separate name r before
      · exact ⟨foo, rfl⟩
  · constructor
    case dotted => simpa only [added_other direct.1] using tables.dotted
    case direct =>
      intro r name
      rw [added_own direct]
      exact update_free free (tables.direct r name)
    case general => simpa only [added_other direct.not_general] using tables.general
    case compiled => simpa only [added_other direct.not_general] using tables.compiled
    case separate => simpa only [added_other direct.1] using tables.separate
  · have notDirect : ¬Direct regexStr := fun direct => direct.not_general general
    constructor
    case dotted => simpa only [added_other general.1] using tables.dotted
    case direct => simpa only [added_other notDirect] using tables.direct
    case general =>
      intro other name
      rw [List.mem_append, List.mem_singleton, Prod.mk.injEq, tables.general]
      simp only [added_own general]
      constructor
      · rintro (⟨r, before, is⟩ | ⟨rfl, rfl⟩)
        · exact ⟨r, Or.inl before, is⟩
        · exact ⟨regexStr, Or.inr ⟨rfl, rfl⟩, compiled⟩
      · rintro ⟨r, before | ⟨rfl, rfl⟩, is⟩
        · exact Or.inl ⟨r, before, is⟩
        · exact Or.inr ⟨Except.ok.inj (is.symm.trans compiled), rfl⟩
    case compiled =>
      intro name r found
      obtain before | ⟨-, rfl⟩ := (added_own general name r).mp found
      · exact tables.compiled name r before
      · exact ⟨expr, compiled⟩
    case separate => simpa only [added_other general.1] using tables.separate

theorem addRegexes_tables {ds : String} {regexStrs : List (List Char)} {before after : Regexes engine}
    {listed : List (String × List Char)} (tables : Tables listed before)
    (added : regexStrs.foldlM (addRegex engine ds) before = .ok after) :
    Tables (listed ++ regexStrs.map fun r => (ds, r)) after := by
  induction regexStrs generalizing before listed with
  | nil =>
    obtain rfl := Except.ok.inj added
    rw [List.map_nil, List.append_nil]
    exact tables
  | cons r rest ih =>
    obtain ⟨middle, here, later⟩ := ExceptList.bind_ok added
    have next := ih (addRegex_tables tables here) later
    rw [List.append_assoc] at next
    exact next

def pairs (dsToRegex : List (String × List (List Char))) : List (String × List Char) :=
  dsToRegex.flatMap fun entry => entry.2.map fun r => (entry.1, r)

theorem mem_pairs {dsToRegex : List (String × List (List Char))} {ds : String} {r : List Char} :
    (ds, r) ∈ pairs dsToRegex ↔ ∃ regexStrs, (ds, regexStrs) ∈ dsToRegex ∧ r ∈ regexStrs := by
  simp only [pairs, List.mem_flatMap, List.mem_map, Prod.exists, Prod.mk.injEq]
  constructor
  · rintro ⟨_, regexStrs, listed, _, member, rfl, rfl⟩
    exact ⟨regexStrs, listed, member⟩
  · rintro ⟨regexStrs, listed, member⟩
    exact ⟨ds, regexStrs, listed, r, member, rfl, rfl⟩

theorem createRegexes_tables {dsToRegex : List (String × List (List Char))} {regexes : Regexes engine}
    (created : createRegexes engine dsToRegex = .ok regexes) : Tables (pairs dsToRegex) regexes := by
  suffices law : ∀ {before : Regexes engine} {listed : List (String × List Char)}, Tables listed before →
      dsToRegex.foldlM (fun dsRegexes entry => entry.2.foldlM (addRegex engine entry.1) dsRegexes) before = .ok regexes →
      Tables (listed ++ pairs dsToRegex) regexes from law tables_new created
  clear created
  induction dsToRegex with
  | nil =>
    intro before listed tables added
    obtain rfl := Except.ok.inj added
    simpa [pairs] using tables
  | cons entry rest ih =>
    intro before listed tables added
    obtain ⟨middle, here, later⟩ := ExceptList.bind_ok added
    have next := ih (addRegexes_tables tables here) later
    rw [List.append_assoc] at next
    exact next

theorem foldlM_panic {σ α : Type} {step : σ → α → Except Fault σ} {items : List α}
    (calm : ∀ s, ∀ item ∈ items, step s item ≠ .error .panic) (s : σ) : items.foldlM step s ≠ .error .panic := by
  induction items generalizing s with
  | nil => exact fun panics => nomatch panics
  | cons item rest ih =>
    rw [List.foldlM_cons]
    cases here : step s item with
    | error fault =>
      intro panics
      obtain rfl := Except.error.inj panics
      exact calm s item List.mem_cons_self here
    | ok next => exact ih (fun s other member => calm s other (List.mem_cons_of_mem _ member)) next

theorem addRegex_panic {ds : String} {before : Regexes engine} {regexStr : List Char}
    (panics : addRegex engine ds before regexStr = .error .panic) : regexStr = ['.', '*', '\\', '.', '.', '*'] := by
  unfold addRegex at panics
  split_ifs at panics with dotted short plain
  · exact dotted_overlap dotted short
  · dsimp only at panics
    split at panics <;> cases panics
  · split at panics <;> cases panics
  · split at panics <;> cases panics

/-- Only one expression makes the slicing panic. -/
theorem createRegexes_panic {dsToRegex : List (String × List (List Char))}
    (apart : ∀ ds r, (ds, r) ∈ pairs dsToRegex → r ≠ ['.', '*', '\\', '.', '.', '*']) :
    createRegexes engine dsToRegex ≠ .error .panic := by
  refine foldlM_panic (fun before entry listed => foldlM_panic (fun middle r member panics => ?_) before) Regexes.new
  exact apart entry.1 r (mem_pairs.mpr ⟨entry.2, listed, member⟩) (addRegex_panic panics)

end Creating

/-- How an expression and a name go together in the lookup. -/
def Fits (engine : Engine) (r domain subdomain subsubdomain : List Char) : Prop :=
  r = between subdomain ∨ (Direct r ∧ r = fqdn domain subdomain subsubdomain) ∨
    (General r ∧ ∃ expr, engine.compile r = .ok expr ∧ engine.matchString expr (fqdn domain subdomain subsubdomain) = true)

/-- The expression, anchored at both ends, matches the name. -/
def Matches (engine : Engine) (r name : List Char) : Prop :=
  ∃ expr, engine.compile r = .ok expr ∧ engine.matchesWhole expr name = true

section Lookup

variable {engine : Engine} {added : List (String × List Char)} {regexes : Regexes engine}
  {visited : List (engine.Expr × String)} {domain subdomain subsubdomain : List Char}

theorem deliveryService_sound (tables : Tables added regexes) (perm : visited.Perm regexes.regexMatch) {ds : String}
    (found : regexes.deliveryService visited domain subdomain subsubdomain = some ds) :
    ∃ r, (ds, r) ∈ added ∧ Fits engine r domain subdomain subsubdomain := by
  unfold Regexes.deliveryService at found
  split at found
  next other dotted =>
    obtain rfl := Option.some.inj found
    exact ⟨_, ((tables.dotted _ _).mp dotted).1, Or.inl rfl⟩
  next =>
    split at found
    next other direct =>
      obtain rfl := Option.some.inj found
      obtain ⟨member, is⟩ := (tables.direct _ _).mp direct
      exact ⟨_, member, Or.inr (Or.inl ⟨is, rfl⟩)⟩
    next =>
      obtain ⟨⟨expr, name⟩, first, rfl⟩ := Option.map_eq_some_iff.mp found
      have listed := perm.mem_iff.mp (List.mem_of_find?_eq_some first)
      obtain ⟨r, ⟨member, general⟩, compiled⟩ := (tables.general expr name).mp listed
      have matched : engine.matchString expr (fqdn domain subdomain subsubdomain) = true := by
        simpa using List.find?_some first
      exact ⟨r, member, Or.inr (Or.inr ⟨general, expr, compiled, matched⟩)⟩

theorem deliveryService_complete (tables : Tables added regexes) (perm : visited.Perm regexes.regexMatch) {ds : String}
    {r : List Char} (member : (ds, r) ∈ added) (fits : Fits engine r domain subdomain subsubdomain) :
    (regexes.deliveryService visited domain subdomain subsubdomain).isSome := by
  unfold Regexes.deliveryService
  split
  next => rfl
  next undotted =>
    split
    next => rfl
    next indirect =>
      obtain rfl | ⟨direct, rfl⟩ | ⟨general, expr, compiled, found⟩ := fits
      · rw [(tables.dotted subdomain ds).mpr ⟨member, dotted_between subdomain⟩] at undotted
        cases undotted
      · rw [(tables.direct _ ds).mpr ⟨member, direct⟩] at indirect
        cases indirect
      · have listed : (expr, ds) ∈ visited :=
          perm.mem_iff.mpr ((tables.general expr ds).mpr ⟨r, ⟨member, general⟩, compiled⟩)
        rw [Option.isSome_map, List.find?_isSome]
        exact ⟨(expr, ds), listed, found⟩

end Lookup

section Anchored

variable {engine : Engine} (documented : engine.Documented)

include documented

theorem matches_pieces (pieces : List Piece) (name : List Char) :
    Matches engine (text pieces) name ↔ spells pieces name = true := by
  obtain ⟨expr, compiled, meaning⟩ := documented.compiles pieces
  constructor
  · rintro ⟨other, again, whole⟩
    obtain rfl := Except.ok.inj (compiled.symm.trans again)
    rwa [Engine.matchesWhole, meaning] at whole
  · intro spelled
    exact ⟨expr, compiled, by rwa [Engine.matchesWhole, meaning]⟩

/-- With a plain text between the ends the expression looks for it between two dots of one line. -/
theorem matches_between {foo : List Char} (plain : ∀ c ∈ foo, c ∉ special) (name : List Char) :
    Matches engine (between foo) name ↔
      ∃ front back, OneLine front ∧ OneLine back ∧ name = front ++ '.' :: foo ++ '.' :: back := by
  have written : text (.anyStar :: ('.' :: foo ++ ['.']).map Piece.literal ++ [.anyStar]) = between foo := by
    have literals : (foo.map Piece.literal).flatMap Piece.text = foo := by
      rw [List.flatMap_map]
      induction foo with
      | nil => rfl
      | cons c foo ih =>
        rw [List.flatMap_cons, ih fun other member => plain other (List.mem_cons_of_mem _ member), Piece.text,
          if_neg (plain c List.mem_cons_self)]
        rfl
    simp [Regexp.text, Piece.text, special, between, prefixStr, suffixStr, literals]
  rw [← written, matches_pieces documented]
  simp only [List.cons_append, spells, skipLine_iff]
  constructor
  · rintro ⟨front, rest, rfl, line, found⟩
    obtain ⟨back, rfl, ends⟩ := (spells_literals_iff _).mp found
    exact ⟨front, back, line, spells_anyStar_iff.mp ends, by simp⟩
  · rintro ⟨front, back, line, ends, rfl⟩
    refine ⟨front, '.' :: foo ++ '.' :: back, by simp, line, ?_⟩
    exact (spells_literals_iff _).mpr ⟨back, by simp, spells_anyStar_iff.mpr ends⟩

/-- A direct expression has no special characters but dots, each of which matches itself, and `$`. -/
theorem matches_direct {r : List Char} (direct : Direct r) (endless : '$' ∉ r) : Matches engine r r := by
  let piece (c : Char) : Piece := if c = '.' then .any else .literal c
  have plain : ∀ c ∈ r, c ≠ '.' → c ∉ special := by
    intro c member dot is
    have notEnd : c ≠ '$' := fun same => endless (same ▸ member)
    refine direct.2 c member ?_
    simp only [special, List.mem_cons, List.not_mem_nil, or_false] at is
    simp only [regexChars, List.mem_cons, List.not_mem_nil, or_false]
    tauto
  have written : ∀ cs : List Char, (∀ c ∈ cs, c ≠ '.' → c ∉ special) →
      text (cs.map piece) = cs ∧ spells (cs.map piece) cs = true := by
    intro cs
    induction cs with
    | nil => exact fun _ => ⟨rfl, rfl⟩
    | cons c cs ih =>
      intro clear
      obtain ⟨rest, spelled⟩ := ih fun other member => clear other (List.mem_cons_of_mem _ member)
      rw [Regexp.text] at rest
      by_cases dot : c = '.'
      · subst dot
        simp [Regexp.text, piece, Piece.text, rest, spells, spelled]
      · have own := clear c List.mem_cons_self dot
        simp [Regexp.text, piece, dot, Piece.text, own, rest, spells, spelled]
  obtain ⟨same, spelled⟩ := written r plain
  have found := (matches_pieces documented (r.map piece) r).mpr spelled
  rwa [same] at found

end Anchored

end TrafficControl.TrafficMonitor.ToData
